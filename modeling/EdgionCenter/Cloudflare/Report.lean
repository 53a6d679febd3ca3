import EdgionCenter.Cloudflare.Batch

/-! Reading back what was posted. -/
namespace EdgionCenter.Cloudflare

open Fallible ProviderDnsRecordSet

section Txt

theorem utf8EncodeChar_charOfNat {n : Nat} (h : n < 128) :
    String.utf8EncodeChar (Char.ofNat n) = [UInt8.ofNat n] := by
  have hn : (Char.ofNat n).toNat = n := toNat_charOfNat (by omega)
  rw [utf8EncodeChar_of_ascii (by omega), hn]

/-- The bytes of a rendered byte. -/
def byteEscape (b : UInt8) : List UInt8 :=
  if b = 34 ∨ b = 92 then [92, b]
  else if 32 ≤ b ∧ b ≤ 126 then [b]
  else [92, UInt8.ofNat (48 + b.toNat / 100), UInt8.ofNat (48 + b.toNat / 10 % 10),
    UInt8.ofNat (48 + b.toNat % 10)]

theorem utf8_renderByte (b : UInt8) :
    (renderByte b).flatMap String.utf8EncodeChar = byteEscape b := by
  have hb := b.toNat_lt
  have hslash : String.utf8EncodeChar '\\' = [92] := by decide
  unfold renderByte byteEscape digitChar
  split
  · rename_i h
    have hlt : b.toNat < 128 := by
      rcases h with rfl | rfl <;> decide
    simp [hslash, utf8EncodeChar_charOfNat hlt]
  · split
    · rename_i h
      have hlt : b.toNat < 128 := by
        have := UInt8.le_iff_toNat_le.mp h.2
        simp at this
        omega
      simp [utf8EncodeChar_charOfNat hlt]
    · have h1 : 48 + b.toNat / 100 < 128 := by omega
      have h2 : 48 + b.toNat / 10 % 10 < 128 := by omega
      have h3 : 48 + b.toNat % 10 < 128 := by omega
      simp [hslash, utf8EncodeChar_charOfNat h1, utf8EncodeChar_charOfNat h2,
        utf8EncodeChar_charOfNat h3]

variable {segment rest : List UInt8}

theorem inside_escape {a b c : UInt8} (ha : isAsciiDigit a = true) (hb : isAsciiDigit b = true)
    (hc : isAsciiDigit c = true) (hv : escapeValue a b c ≤ 255) (hl : segment.length < 255) :
    txtSegments (.inside segment) (92 :: a :: b :: c :: rest) =
      txtSegments (.inside (segment ++ [UInt8.ofNat (escapeValue a b c)])) rest := by
  rw [txtSegments]
  simp [ha, hb, hc, hv, pushByte, hl]

theorem inside_quoted {a : UInt8} (ha : isAsciiDigit a = false) (hl : segment.length < 255) :
    txtSegments (.inside segment) (92 :: a :: rest) =
      txtSegments (.inside (segment ++ [a])) rest := by
  -- the scan looks ahead three bytes for a numeric escape
  match rest with
  | [] =>
    simp [txtSegments, pushByte, hl]
  | [_] =>
    rw [txtSegments]
    · simp [pushByte, hl]
    · simp
  | _ :: _ :: _ =>
    rw [txtSegments]
    simp [ha, pushByte, hl]

theorem inside_plain {a : UInt8} (hquote : a ≠ 34) (hslash : a ≠ 92)
    (ha : isAsciiControl a = false) (hl : segment.length < 255) :
    txtSegments (.inside segment) (a :: rest) = txtSegments (.inside (segment ++ [a])) rest := by
  rw [txtSegments]
  · simp [ha, pushByte, hl]
  · exact hquote
  all_goals simp [hslash]

/-- A decimal digit of a rendered byte is read as that digit. -/
theorem isAsciiDigit_ofNat {n : Nat} (h : n < 10) : isAsciiDigit (UInt8.ofNat (48 + n)) = true := by
  have hn : (UInt8.ofNat (48 + n)).toNat = 48 + n :=
    UInt8.toNat_ofNat_of_lt' (by change 48 + n < 256; omega)
  simp only [isAsciiDigit, Bool.and_eq_true, decide_eq_true_eq, UInt8.le_iff_toNat_le, hn]
  constructor
  · change 48 ≤ 48 + n
    omega
  · change 48 + n ≤ 57
    omega

theorem escapeValue_digits (b : UInt8) :
    escapeValue (UInt8.ofNat (48 + b.toNat / 100)) (UInt8.ofNat (48 + b.toNat / 10 % 10))
      (UInt8.ofNat (48 + b.toNat % 10)) = b.toNat := by
  have hb := b.toNat_lt
  have hn : ∀ n < 10, (UInt8.ofNat (48 + n)).toNat = 48 + n := by
    intro n h
    exact UInt8.toNat_ofNat_of_lt' (by change 48 + n < 256; omega)
  rw [escapeValue, hn _ (by omega), hn _ (by omega), hn _ (by omega)]
  omega

/-- What is written of a byte is read as that byte. -/
theorem inside_byteEscape (b : UInt8) (hl : segment.length < 255) :
    txtSegments (.inside segment) (byteEscape b ++ rest) =
      txtSegments (.inside (segment ++ [b])) rest := by
  have hb := b.toNat_lt
  unfold byteEscape
  split
  · rename_i h
    have hdigit : isAsciiDigit b = false := by
      rcases h with rfl | rfl <;> decide
    exact inside_quoted hdigit hl
  · rename_i h
    rw [not_or] at h
    split
    · rename_i hprint
      have hcontrol : isAsciiControl b = false := by
        rw [UInt8.le_iff_toNat_le, UInt8.le_iff_toNat_le] at hprint
        rw [isAsciiControl, Bool.or_eq_false_iff, decide_eq_false_iff_not, beq_eq_false_iff_ne]
        constructor
        · rw [UInt8.lt_iff_toNat_lt]
          omega
        · intro he
          rw [he] at hprint
          exact absurd hprint.2 (by decide)
      exact inside_plain h.1 h.2 hcontrol hl
    · have he := escapeValue_digits b
      have hread := @inside_escape segment rest _ _ _
        (isAsciiDigit_ofNat (n := b.toNat / 100) (by omega))
        (isAsciiDigit_ofNat (n := b.toNat / 10 % 10) (by omega))
        (isAsciiDigit_ofNat (n := b.toNat % 10) (by omega)) (by omega) hl
      rw [he, UInt8.ofNat_toNat] at hread
      exact hread

theorem inside_bytes (bytes : List UInt8) (hl : segment.length + bytes.length ≤ 255) :
    txtSegments (.inside segment) (bytes.flatMap byteEscape ++ rest) =
      txtSegments (.inside (segment ++ bytes)) rest := by
  induction bytes generalizing segment with
  | nil => simp
  | cons b bytes ih =>
    simp only [List.length_cons] at hl
    rw [List.flatMap_cons, List.append_assoc, inside_byteEscape b (by omega), ih (by simp; omega),
      List.append_assoc]
    rfl

/-- The bytes of a rendered segment. -/
def segmentBytes (text : DnsCharacterString) : List UInt8 :=
  34 :: (text.bytes.flatMap byteEscape ++ [34])

theorem utf8_renderSegment (text : DnsCharacterString) :
    (renderSegment text).flatMap String.utf8EncodeChar = segmentBytes text := by
  have hquote : String.utf8EncodeChar '"' = [34] := by decide
  simp [renderSegment, segmentBytes, hquote, List.flatMap_assoc, utf8_renderByte]

/-- A segment is read up to its closing quote. -/
theorem gap_segmentBytes (text : DnsCharacterString) :
    txtSegments .gap (segmentBytes text ++ rest) =
      (txtSegments .closed rest >>= fun texts => return text :: texts) := by
  have hopen : txtSegments .gap (segmentBytes text ++ rest) =
      txtSegments (.inside []) (text.bytes.flatMap byteEscape ++ (34 :: rest)) := by
    simp only [segmentBytes, List.cons_append, List.append_assoc, List.nil_append, txtSegments]
    rfl
  rw [hopen, inside_bytes text.bytes (by simpa using text.bounded), List.nil_append, txtSegments]
  simp [DnsCharacterString.new_bytes, orElse]

theorem txtSegments_join (texts : List DnsCharacterString) (hne : texts ≠ []) :
    txtSegments .gap ([(32 : UInt8)].intercalate (texts.map segmentBytes)) = .ok texts := by
  induction texts with
  | nil => exact absurd rfl hne
  | cons text texts ih =>
    cases texts with
    | nil =>
      have h := @gap_segmentBytes [] text
      simpa [txtSegments] using h
    | cons next texts =>
      have hclosed : ∀ bytes, txtSegments .closed (32 :: bytes) = txtSegments .gap bytes := by
        intro bytes
        rfl
      rw [List.map_cons, List.map_cons, List.intercalate_cons_cons, List.append_assoc,
        gap_segmentBytes,
        List.singleton_append, hclosed, ← List.map_cons, ih (by simp)]
      rfl

theorem utf8Bytes_renderTxt (value : DnsTxtValue) :
    utf8Bytes (renderTxt value) = [(32 : UInt8)].intercalate (value.segments.map segmentBytes) := by
  have hspace : String.utf8EncodeChar ' ' = [32] := by decide
  simp only [utf8Bytes, utf8, renderTxt, String.toList_ofList]
  generalize value.segments = texts
  induction texts with
  | nil => rfl
  | cons text texts ih =>
    cases texts with
    | nil => simp [utf8_renderSegment]
    | cons next texts =>
      rw [List.map_cons, List.map_cons, List.intercalate_cons_cons, List.flatMap_append,
        List.flatMap_append, ← List.map_cons, ih, utf8_renderSegment]
      simp [hspace]

/-- The rendering of a TXT value is read as that value. -/
theorem txtValue_renderTxt (value : DnsTxtValue) : txtValue (renderTxt value) = .ok value := by
  rw [txtValue, utf8Bytes_renderTxt, txtSegments_join _ value.segments_ne_nil]
  simp [DnsTxtValue.new_segments, orElse]

theorem renderTxt_injective : Function.Injective renderTxt := by
  intro value value' h
  have hread := congrArg txtValue h
  rw [txtValue_renderTxt, txtValue_renderTxt] at hread
  exact Except.ok.inj hread

/-- What a provider sends as a TXT content is read into a well-formed value, every value is
written so that it is read back, and no two values are written alike. -/
theorem txt_codec : (∀ value, txtValue (renderTxt value) = .ok value) ∧
      (∀ content value, txtValue content = .ok value →
        value.segments ≠ [] ∧ (∀ segment ∈ value.segments, segment.bytes.length ≤ 255) ∧
          txtValue (renderTxt value) = .ok value) ∧
      ∀ value value', renderTxt value = renderTxt value' → value = value' := by
  refine ⟨txtValue_renderTxt, ?_, fun _ _ h => renderTxt_injective h⟩
  intro _ value _
  exact ⟨value.segments_ne_nil, fun segment _ => segment.bounded, txtValue_renderTxt value⟩

end Txt

section Json

variable {members : List (String × Value)} {field code : String}

theorem dataNat_jsonNat {n bound : Nat} (h : (Value.object members).get field = some (jsonNat n))
    (hbound : bound ≤ 65536) (hn : n < bound) :
    dataNat (some (.object members)) field bound = some n := by
  have hnat : (jsonNat n).asU64 = some n := by
    rw [jsonNat, Value.asU64, Number.ofNat, decimal, String.toList_ofList,
      Decimal.parse_text (Nat.lt_of_lt_of_le hn (hbound.trans (by decide)))]
  simp [dataNat, h, hnat, hn]

theorem dataU16_jsonNat {n : UInt16} (h : (Value.object members).get field = some (jsonNat n.toNat)) :
    dataU16 (some (.object members)) field = some n := by
  simp [dataU16, dataNat_jsonNat h (by omega) n.toNat_lt]

theorem requiredDataU8_jsonNat {n : UInt8}
    (h : (Value.object members).get field = some (jsonNat n.toNat)) :
    requiredDataU8 (some (.object members)) field code = .ok n := by
  simp [requiredDataU8, dataNat_jsonNat h (by omega) n.toNat_lt, present]

end Json

variable [Platform]

/-- How Cloudflare reports a record that was posted: as it was posted, with an id and with what it
adds where something was left out. -/
structure Reports (post : CloudflareBatchRecord) (raw : RawRecord) : Prop where
  id : validCloudflareIdentifier raw.id = true
  kind : raw.kind = post.kind
  name : raw.name = post.name
  ttl : raw.ttl = post.ttl
  content : ∀ text ∈ post.content, raw.content = some text
  data : ∀ value ∈ post.data, raw.data = some value
  priority : raw.priority = post.priority
  proxied : raw.proxied = some (post.proxied.getD false)
  proxiable : post.kind = "A" ∨ post.kind = "AAAA" ∨ post.kind = "CNAME" → raw.proxiable = true
  settings : raw.settings = post.settings.map fun settings => ⟨false, false, settings.flattenCname⟩
  privateRouting : raw.privateRouting = false
  comment : raw.comment = post.comment
  tags : raw.tags.Nodup ∧ raw.tags.toFinset = post.tags

section Value

variable {owner : DnsOwnerName} {ttl : Nat} {extension : RenderedExtension}
  {value : DnsRecordSetValue} {post : CloudflareBatchRecord} {raw : RawRecord}

theorem absoluteName_value (name : AbsoluteDnsName) (code : String) :
    absoluteName name.value code = .ok name := by
  simp [absoluteName, AbsoluteDnsName.new_value, orElse]

/-- The value of a posted record is read back. -/
theorem Reports.value_eq (h : Reports post raw)
    (hpost : renderRecord owner ttl extension value = .ok post) : raw.value = .ok value := by
  simp only [renderRecord, bind_eq_ok, pure_eq_ok] at hpost
  obtain ⟨rendered, hr, rfl⟩ := hpost
  have hkind := h.kind
  have hcontent := h.content
  have hdata := h.data
  have hpriority := h.priority
  cases value with
  | a address =>
    cases hr
    rw [RawRecord.value, hkind, hcontent _ rfl]
    simp [renderedContent, requiredContent, present]
  | aaaa address =>
    cases hr
    rw [RawRecord.value, hkind, hcontent _ rfl]
    simp [renderedContent, requiredContent, present]
  | cname target =>
    cases hr
    rw [RawRecord.value, hkind, hcontent _ rfl]
    simp [renderedContent, requiredContent, present, absoluteName_value]
  | txt value =>
    cases hr
    rw [RawRecord.value, hkind, hcontent _ rfl]
    simp [renderedContent, requiredContent, present, txtValue_renderTxt]
  | mx preference exchange =>
    cases hr
    rw [RawRecord.value, hkind, hcontent _ rfl, hpriority]
    simp [requiredContent, present, absoluteName_value]
  | srv priority weight port target =>
    cases hr
    rw [RawRecord.value, hkind, hdata _ rfl]
    simp only [requiredDataU16]
    rw [dataU16_jsonNat (n := priority) rfl, dataU16_jsonNat (n := weight) rfl,
      dataU16_jsonNat (n := port) rfl]
    simp [requiredDataStr, present, absoluteName_value, Value.get, Value.asObject, Value.asStr,
      List.lookup_cons]
  | caa flags tag value =>
    simp only [renderValue] at hr
    split at hr
    · cases hr
    · rename_i text htext
      cases hr
      rw [RawRecord.value, hkind, hdata _ rfl]
      simp only
      rw [requiredDataU8_jsonNat (n := flags) rfl]
      simp [requiredDataStr, present, Value.get, Value.asObject, Value.asStr, List.lookup_cons,
        CaaTag.new_value, utf8Bytes_of_fromUtf8 htext, DnsCharacterString.new_bytes, orElse]
  | ns target =>
    cases hr
    rw [RawRecord.value, hkind, hcontent _ rfl]
    simp [renderedContent, requiredContent, present, absoluteName_value]
  | soa => cases hr

end Value

section Group

variable {rs : ProviderDnsRecordSet} {extension : RenderedExtension} {ttl : Nat}
  {zone : DnsZoneRef} {record other : CloudflareRecord}

/-- A record that was posted for a record set, as it is read back. -/
structure PostedFor (rs : ProviderDnsRecordSet) (record : CloudflareRecord) : Prop where
  id : validCloudflareIdentifier record.id = true
  name : record.name = rs.key.owner.value
  ttl : renderTtl rs.ttl = .ok record.ttl
  value : record.value ∈ rs.values
  plain : record.ipv4Only = false ∧ record.ipv6Only = false ∧ record.privateRouting = false
  proxiable : rs.key.recordType.proxiable = true → record.proxiable = true
  extension : ∃ e, renderExtension rs.extension = .ok e ∧
    record.proxied = some (e.proxied.getD false) ∧
    record.flattenCname = e.settings.bind CloudflareBatchSettings.flattenCname ∧
    record.comment = e.comment ∧ record.tags = e.tags

theorem kind_of_renderValue {value : DnsRecordSetValue} {rendered : RenderedValue}
    (h : renderValue value = .ok rendered) (hp : value.recordType.proxiable = true) :
    rendered.kind = "A" ∨ rendered.kind = "AAAA" ∨ rendered.kind = "CNAME" := by
  cases value with
  | a | aaaa | cname => cases h; simp [renderedContent]
  | _ => cases hp

/-- A reported record is read as a record of the set it was posted for. -/
theorem Reports.mapRecord {post : CloudflareBatchRecord} {raw : RawRecord}
    {value : DnsRecordSetValue} (h : Reports post raw) (hvalue : value ∈ rs.values)
    (htype : value.recordType = rs.key.recordType) (hext : renderExtension rs.extension = .ok extension)
    (httl : renderTtl rs.ttl = .ok ttl)
    (hpost : renderRecord rs.key.owner ttl extension value = .ok post) :
    ∃ record, raw.mapRecord = .ok record ∧ record.id = raw.id ∧ record.value = value ∧
      PostedFor rs record := by
  have hread := h.value_eq hpost
  simp only [renderRecord, bind_eq_ok, pure_eq_ok] at hpost
  obtain ⟨rendered, hr, rfl⟩ := hpost
  obtain ⟨record, hmap⟩ : ∃ record, raw.mapRecord = .ok record := by
    simp [RawRecord.mapRecord, hread, h.tags.1]
  have hrecord := hmap
  simp only [RawRecord.mapRecord, hread, ok_bind, bind_eq_ok, exists_unit, pure_eq_ok] at hrecord
  obtain ⟨_, rfl⟩ := hrecord
  refine ⟨_, hmap, rfl, rfl, h.id, h.name, ?_, hvalue, ?_, ?_, extension, hext, h.proxied, ?_,
    h.comment, h.tags.2⟩
  · rw [httl, h.ttl]
  · rw [h.settings]
    cases extension.settings <;> exact ⟨rfl, rfl, h.privateRouting⟩
  · intro hp
    exact h.proxiable (kind_of_renderValue hr (htype ▸ hp))
  · rw [h.settings]
    cases extension.settings <;> rfl

/-- The records posted for a set are read back, one for each of its values. -/
theorem mapM_mapRecord_of_reports {posts : List CloudflareBatchRecord} {raws : List RawRecord}
    (htype : ∀ value ∈ rs.values, value.recordType = rs.key.recordType)
    (hposts : renderRecordSet rs = .ok posts) (hreports : List.Forall₂ Reports posts raws) :
    ∃ records, raws.mapM RawRecord.mapRecord = .ok records ∧
      records.map CloudflareRecord.id = raws.map RawRecord.id ∧
      records.map CloudflareRecord.value = inOrder rs.values ∧ ∀ record ∈ records, PostedFor rs record := by
  simp only [renderRecordSet, bind_eq_ok, mapM_eq_ok] at hposts
  obtain ⟨extension, hext, ttl, httl, hposts⟩ := hposts
  have hin : ∀ value ∈ inOrder rs.values, value ∈ rs.values := by simp
  generalize inOrder rs.values = values at hposts hin
  induction hposts generalizing raws with
  | nil =>
    cases hreports
    exact ⟨[], rfl, rfl, rfl, by simp⟩
  | @cons value post values posts hpost _ ih =>
    cases hreports with
    | cons hreport hreports =>
      have hvalue := hin value (by simp)
      obtain ⟨record, hmap, hid, hv, hposted⟩ :=
        hreport.mapRecord hvalue (htype value hvalue) hext httl hpost
      obtain ⟨records, hmaps, hids, hvs, hall⟩ := ih hreports fun v hv => hin v (by simp [hv])
      refine ⟨record :: records, ?_, by simp [hid, hids], by simp [hv, hvs], ?_⟩
      · rw [List.mapM_cons, hmap, hmaps]
        rfl
      · exact List.forall_mem_cons.mpr ⟨hposted, hall⟩

/-- A set that is observed as it was asked for: one second of TTL would be read as automatic, and
an extension that asks for nothing is not reported. -/
structure Reportable (rs : ProviderDnsRecordSet) : Prop where
  ttl : rs.ttl ≠ .seconds 1
  asked : ∀ proxy flattening comment tags,
    rs.extension = some (.cloudflare proxy flattening comment tags) →
      rs.key.recordType.proxiable = true ∨ rs.ttl = .automatic ∨ comment ≠ none ∨ tags ≠ ∅

/-- A record set that Cloudflare can report as it is. -/
structure Canonical (zone : DnsZoneRef) (rs : ProviderDnsRecordSet) : Prop extends
    InCloudflare zone rs, Reportable rs

theorem PostedFor.recordTtl (h : PostedFor rs record) (hc : Canonical zone rs) :
    recordTtl record.ttl = rs.ttl := by
  have httl := h.ttl
  have hne := hc.ttl
  cases he : rs.ttl with
  | inherited => exact absurd he hc.values.2.1
  | automatic =>
    rw [he] at httl
    rw [← Except.ok.inj httl]
    rfl
  | seconds n =>
    rw [he] at httl hne
    rw [← Except.ok.inj httl, Cloudflare.recordTtl, if_neg]
    intro h1
    exact hne (by rw [h1])

theorem PostedFor.recordKey (h : PostedFor rs record) (hc : Canonical zone rs) :
    recordKey zone record = .ok rs.key := by
  have htype := hc.values.2.2 record.value h.value
  simp only [Cloudflare.recordKey, bind_eq_ok, exists_unit, require_eq_ok, orElse_eq_ok, pure_eq_ok]
  refine ⟨h.plain, rs.key.owner, ?_, hc.within, ?_⟩
  · rw [h.name, DnsOwnerName.new_value]
  · rw [htype, ← hc.routing]

theorem PostedFor.memberSignature (h : PostedFor rs record) (h' : PostedFor rs other) :
    memberSignature other rs.key.recordType = memberSignature record rs.key.recordType := by
  obtain ⟨e, he, hp, hf, hc, ht⟩ := h.extension
  obtain ⟨e', he', hp', hf', hc', ht'⟩ := h'.extension
  obtain rfl : e = e' := Except.ok.inj (he ▸ he')
  have httl : other.ttl = record.ttl := Except.ok.inj (h'.ttl ▸ h.ttl)
  have hproxiable : rs.key.recordType.proxiable = true → other.proxiable = record.proxiable := by
    intro hp
    rw [h.proxiable hp, h'.proxiable hp]
  simp only [Cloudflare.memberSignature, httl, hp, hp', hf, hf', hc, hc', ht, ht',
    MemberSignature.mk.injEq, true_and, and_true]
  split
  · rename_i hp
    rw [hproxiable hp]
  · rfl

/-- Automatic TTL is reported as one second. -/
theorem PostedFor.ttl_eq_one (h : PostedFor rs record) (hc : Canonical zone rs) :
    record.ttl = 1 ↔ rs.ttl = .automatic := by
  rw [← h.recordTtl hc, Cloudflare.recordTtl]
  split <;> simp_all

/-- The extension of the set is what its records ask for. -/
theorem PostedFor.cloudflareExtension (h : PostedFor rs record) (hc : Canonical zone rs) :
    cloudflareExtension record rs.key.recordType = .ok rs.extension := by
  obtain ⟨e, he, hproxied, hflat, hcomment, htags⟩ := h.extension
  have hvalid := hc.extension
  have hone := h.ttl_eq_one hc
  cases hx : rs.extension with
  | none =>
    rw [hx] at he
    cases he
    simp only [validateExtension, hx, validatePortable,
      bind_eq_ok, exists_unit, require_eq_ok] at hvalid
    obtain ⟨hp, hauto, _⟩ := hvalid
    have hp := hp hc.provider
    simp_all [Cloudflare.cloudflareExtension, proxyState, cnameFlattening]
  | some x =>
    cases x with
    | route53 target policy healthCheck => exact absurd hx hc.not_route53
    | cloudflare proxy flattening comment tags =>
      rw [hx] at he
      cases he
      simp only [validateExtension, hx, validateCloudflare,
        bind_eq_ok, exists_unit, require_eq_ok] at hvalid
      obtain ⟨⟨_, _, _, hp, _⟩, _, _, hdefault, _⟩ := hvalid
      have hflat : record.flattenCname = flattenCname flattening := by
        rw [hflat]
        cases flattening <;> rfl
      have hcname : rs.key.recordType ≠ .cname → record.flattenCname = none := by
        intro hne
        rw [hflat, hdefault hne]
        rfl
      have hproxy : proxyState record rs.key.recordType = .ok proxy := by
        rw [proxyState, hproxied, hp]
        cases proxy with
        | none => rfl
        | some state => cases state <;> rfl
      have hproxiable : proxy = some .proxied → record.proxiable = true := by
        rintro rfl
        exact h.proxiable hp
      have hflattening : cnameFlattening record rs.key.recordType = flattening := by
        by_cases ht : rs.key.recordType = .cname
        · unfold cnameFlattening
          rw [hflat, ht]
          cases flattening <;> rfl
        · rw [hdefault ht]
          unfold cnameFlattening
          split
          · exact absurd (by assumption) ht
          · exact absurd (by assumption) ht
          · rfl
      have hasked := hc.asked _ _ _ _ hx
      simp only [Cloudflare.cloudflareExtension, bind_eq_ok, exists_unit, require_eq_ok, hproxy,
        Except.ok.injEq, exists_eq_left', hflattening]
      refine ⟨hcname, hproxiable, ?_⟩
      rw [if_neg]
      · rw [hcomment, htags]
        rfl
      · rintro ⟨hnp, httl, hno, hnt, _⟩
        rcases hasked with ha | ha | ha | ha
        · rw [hnp] at ha
          cases ha
        · exact httl (hone.mpr ha)
        · exact ha (hcomment.symm.trans hno)
        · exact ha (htags.symm.trans hnt)

end Group

end EdgionCenter.Cloudflare
