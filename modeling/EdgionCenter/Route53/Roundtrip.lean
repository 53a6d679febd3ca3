import EdgionCenter.Route53.Record

/-! What is observed in Route 53 can be written back as it is. -/
namespace EdgionCenter.Route53

open Fallible

section Octets

variable {segment rest : List UInt8}

/-- The three octal digits of an octet. -/
def octalDigits (b : UInt8) : List UInt8 :=
  [UInt8.ofNat (48 + b.toNat / 64), UInt8.ofNat (48 + b.toNat / 8 % 8),
    UInt8.ofNat (48 + b.toNat % 8)]

theorem toNat_octal {n : Nat} (h : n < 8) : (UInt8.ofNat (48 + n)).toNat = 48 + n :=
  UInt8.toNat_ofNat_of_lt' (by change 48 + n < 256; omega)

/-- The octal digits of an octet are read as that octet. -/
theorem parseOctalEscape_digits (b : UInt8) :
    parseOctalEscape (UInt8.ofNat (48 + b.toNat / 64)) (UInt8.ofNat (48 + b.toNat / 8 % 8))
      (UInt8.ofNat (48 + b.toNat % 8)) = some b := by
  have hb := b.toNat_lt
  have hoctal : ∀ n < 8, (48 ≤ UInt8.ofNat (48 + n) && UInt8.ofNat (48 + n) ≤ 55) = true := by
    decide
  have hvalue : (48 + b.toNat / 64 - 48) * 64 + (48 + b.toNat / 8 % 8 - 48) * 8 +
      (48 + b.toNat % 8 - 48) = b.toNat := by
    omega
  unfold parseOctalEscape
  simp only [hoctal _ (by omega : b.toNat / 64 < 8), hoctal _ (by omega : b.toNat / 8 % 8 < 8),
    hoctal _ (by omega : b.toNat % 8 < 8), toNat_octal (by omega : b.toNat / 64 < 8),
    toNat_octal (by omega : b.toNat / 8 % 8 < 8), toNat_octal (by omega : b.toNat % 8 < 8), hvalue]
  rw [if_pos (by simpa using hb), UInt8.ofNat_toNat]

theorem inside_octal (b : UInt8) : characterStrings (some segment) (92 :: (octalDigits b ++ rest)) =
      characterStrings (some (segment ++ [b])) rest := by
  have hb := b.toNat_lt
  have hdigit : ∀ n < 8, isAsciiDigit (UInt8.ofNat (48 + n)) = true := by decide
  change characterStrings (some segment) (92 :: UInt8.ofNat (48 + b.toNat / 64) ::
    UInt8.ofNat (48 + b.toNat / 8 % 8) :: UInt8.ofNat (48 + b.toNat % 8) :: rest) = _
  rw [characterStrings, if_pos (hdigit _ (by omega)), parseOctalEscape_digits]
  rfl

variable {a : UInt8}

theorem inside_escaped (ha : isAsciiDigit a = false) :
    characterStrings (some segment) (92 :: a :: rest) =
      characterStrings (some (segment ++ [a])) rest := by
  -- the scan looks ahead three octets for a numeric escape
  match rest with
  | [] => simp [characterStrings, ha]
  | [_] =>
    rw [characterStrings]
    · simp [ha]
    · simp
  | _ :: _ :: _ =>
    rw [characterStrings]
    simp [ha]

theorem inside_octet (hquote : a ≠ 34) (hslash : a ≠ 92) :
    characterStrings (some segment) (a :: rest) =
      characterStrings (some (segment ++ [a])) rest := by
  rw [characterStrings]
  · exact hquote
  all_goals simp [hslash]

/-- The bytes of a rendered octet. -/
def octetBytes (b : UInt8) : List UInt8 :=
  if b = 34 ∨ b = 92 then [92, b]
  else if 32 ≤ b ∧ b ≤ 126 then [b]
  else 92 :: octalDigits b

theorem inside_octetBytes (b : UInt8) : characterStrings (some segment) (octetBytes b ++ rest) =
      characterStrings (some (segment ++ [b])) rest := by
  unfold octetBytes
  split
  · rename_i h
    apply inside_escaped
    rcases h with rfl | rfl <;> decide
  · rename_i h
    rw [not_or] at h
    split
    · exact inside_octet h.1 h.2
    · exact inside_octal b

theorem inside_flatMap (bytes : List UInt8) :
    characterStrings (some segment) (bytes.flatMap octetBytes ++ rest) =
      characterStrings (some (segment ++ bytes)) rest := by
  induction bytes generalizing segment with
  | nil => simp
  | cons b bytes ih =>
    rw [List.flatMap_cons, List.append_assoc, inside_octetBytes, ih, List.append_assoc]
    rfl

theorem utf8_renderOctet (b : UInt8) :
    (renderOctet b).flatMap String.utf8EncodeChar = octetBytes b := by
  have hb := b.toNat_lt
  have hslash : String.utf8EncodeChar '\\' = [92] := by decide
  have hchar : b.toNat < 128 → String.utf8EncodeChar (Char.ofNat b.toNat) = [b] := by
    intro hlt
    have hn : (Char.ofNat b.toNat).toNat = b.toNat := toNat_charOfNat hb
    rw [utf8EncodeChar_of_ascii (by omega), hn, UInt8.ofNat_toNat]
  have hdigit : ∀ n < 8, String.utf8EncodeChar n.digitChar = [UInt8.ofNat (48 + n)] := by
    decide
  unfold renderOctet octetBytes octalDigits
  split
  · rename_i h
    have hlt : b.toNat < 128 := by
      rcases h with rfl | rfl <;> decide
    simp [hslash, hchar hlt]
  · split
    · rename_i h
      have hlt : b.toNat < 128 := by
        have := UInt8.le_iff_toNat_le.mp h.2
        simp at this
        omega
      simp [hchar hlt]
    · simp [hslash, hdigit _ (by omega : b.toNat / 64 < 8),
        hdigit _ (by omega : b.toNat / 8 % 8 < 8), hdigit _ (by omega : b.toNat % 8 < 8)]

/-- A rendered string is read up to its closing quote. -/
theorem characterStrings_render (string : DnsCharacterString) : characterStrings none
        ((renderCharacterString string.bytes).flatMap String.utf8EncodeChar ++ rest) =
      (characterStrings none rest >>= fun strings => return string :: strings) := by
  have hquote : String.utf8EncodeChar '"' = [34] := by decide
  have hbytes : (renderCharacterString string.bytes).flatMap String.utf8EncodeChar =
      34 :: (string.bytes.flatMap octetBytes ++ [34]) := by
    simp [renderCharacterString, hquote, List.flatMap_assoc, utf8_renderOctet]
  have hopen : characterStrings none (34 :: (string.bytes.flatMap octetBytes ++ [34]) ++ rest) =
      characterStrings (some []) (string.bytes.flatMap octetBytes ++ (34 :: rest)) := by
    rw [List.cons_append, List.append_assoc, characterStrings]
    rfl
  rw [hbytes, hopen, inside_flatMap, List.nil_append, characterStrings]
  simp [DnsCharacterString.new_bytes, orElse]

/-- Strings with a blank between them are read as these strings. -/
theorem characterStrings_join (strings : List DnsCharacterString) : characterStrings none
        (([' '].intercalate (strings.map fun s => renderCharacterString s.bytes)).flatMap
          String.utf8EncodeChar) = .ok strings := by
  have hblank : ∀ bytes, characterStrings none (32 :: bytes) = characterStrings none bytes := by
    intro bytes
    rfl
  have hspace : String.utf8EncodeChar ' ' = [32] := by decide
  induction strings with
  | nil => rfl
  | cons string strings ih =>
    cases strings with
    | nil =>
      have h := @characterStrings_render [] string
      simpa [characterStrings] using h
    | cons next strings =>
      rw [List.map_cons] at ih
      rw [List.map_cons, List.map_cons, List.intercalate_cons_cons, List.flatMap_append,
        List.flatMap_append, List.append_assoc, characterStrings_render, List.flatMap_singleton,
        hspace, List.singleton_append, hblank, ih]
      rfl

/-- Rendered strings are read back. -/
theorem parseCharacterStrings_join (value : DnsTxtValue) : parseCharacterStrings (String.ofList
      ([' '].intercalate (value.segments.map fun s => renderCharacterString s.bytes))) = .ok value := by
  rw [parseCharacterStrings, utf8Bytes, utf8, String.toList_ofList, characterStrings_join]
  simp [DnsTxtValue.new_segments, orElse]

end Octets

section Names

theorem decodeEscapes_of_plain {bytes : List UInt8} (h : 92 ∉ bytes) :
    decodeEscapes bytes = some bytes := by
  induction bytes with
  | nil => rfl
  | cons b bytes ih =>
    rw [List.mem_cons, not_or] at h
    rw [decodeEscapes, ih h.2]
    · rfl
    · simp [Ne.symm h.1]
    · simp [Ne.symm h.1]

/-- What canonical names, numbers and tags are written with. -/
theorem graphic_of_isNameChar {c : Char} (h : isNameChar c = true) :
    33 ≤ c.toNat ∧ c.toNat ≤ 126 ∧ c.toNat ≠ 92 := by
  simp only [isNameChar, isOwnerChar, Bool.or_eq_true, isAlphanum_iff, beq_iff_eq] at h
  rcases h with (((h | rfl) | rfl) | rfl) | rfl
  · omega
  all_goals decide

/-- A text without escapes is a name as it stands. -/
theorem decodeDomainPresentation_of_name {s : String} (h : ∀ c ∈ s.toList, isNameChar c = true) :
    decodeDomainPresentation s = .ok s := by
  have hslash : 92 ∉ utf8Bytes s := by
    intro hin
    obtain ⟨c, hc, hin⟩ := List.mem_flatMap.mp hin
    obtain ⟨_, hhigh, hne⟩ := graphic_of_isNameChar (h c hc)
    rw [utf8EncodeChar_of_ascii (by omega), List.mem_singleton] at hin
    have hnat := congrArg UInt8.toNat hin
    rw [UInt8.toNat_ofNat_of_lt' (by change c.toNat < 256; omega)] at hnat
    exact hne hnat.symm
  rw [decodeDomainPresentation, decodeEscapes_of_plain hslash]
  simp [present, fromUtf8_utf8Bytes]

variable [Platform]

theorem isNameChar_fqdn (name : AbsoluteDnsName) : ∀ c ∈ name.fqdn.toList, isNameChar c = true := by
  intro c hc
  rw [AbsoluteDnsName.fqdn, String.toList_append, List.mem_append] at hc
  rcases hc with hc | hc
  · exact isNameChar_of_normalizeName name.canonical c hc
  · rw [List.mem_singleton.mp hc]
    decide

theorem absoluteName_fqdn (name : AbsoluteDnsName) (code : String) :
    absoluteName name.fqdn code = .ok name := by
  rw [absoluteName, decodeDomainPresentation_of_name (isNameChar_fqdn name)]
  simp [AbsoluteDnsName.new_fqdn, orElse]

theorem decode_ownerFqdn (name : DnsOwnerName) : decodeDomainPresentation name.fqdn = .ok name.fqdn := by
  apply decodeDomainPresentation_of_name
  intro c hc
  rw [DnsOwnerName.fqdn, String.toList_append, List.mem_append] at hc
  rcases hc with hc | hc
  · exact isNameChar_of_normalizeName name.canonical c hc
  · rw [List.mem_singleton.mp hc]
    decide

end Names

section Values

/-- A word without blanks. -/
def IsWord (w : List Char) : Prop := w ≠ [] ∧ ∀ c ∈ w, isGraphic c = true

theorem blank_of_graphic {c : Char} (h : isGraphic c = true) :
    isAsciiBlank c = false ∧ isWhitespace c = false := by
  simp only [isGraphic, Bool.and_eq_true, decide_eq_true_eq] at h
  constructor
  · have hn : (UInt8.ofNat c.toNat).toNat = c.toNat :=
      UInt8.toNat_ofNat_of_lt' (by change c.toNat < 256; omega)
    rw [← Bool.not_eq_true]
    simp only [isAsciiBlank, isAsciiSpace, Bool.and_eq_true, Bool.or_eq_true, beq_iff_eq,
      ← UInt8.toNat_inj, hn]
    change ¬ (_ ∧ ((((c.toNat = 9 ∨ c.toNat = 10) ∨ c.toNat = 12) ∨ c.toNat = 13) ∨ c.toNat = 32))
    omega
  · exact isWhitespace_of_graphic h.1 h.2

variable {w : List Char} {t : ProviderDnsRecordType}

theorem isWord_of_isNameChar (hne : w ≠ []) (h : ∀ c ∈ w, isNameChar c = true) : IsWord w := by
  refine ⟨hne, ?_⟩
  intro c hc
  obtain ⟨hlow, hhigh, _⟩ := graphic_of_isNameChar (h c hc)
  simp [isGraphic, hlow, hhigh]

theorem isWord_text (n : Nat) : IsWord (Decimal.text n) := by
  apply isWord_of_isNameChar Nat.toDigits_ne_nil
  intro c hc
  have hdigit := Decimal.isDigit_of_mem_text hc
  simp [isNameChar, isOwnerChar, Char.isAlphanum, hdigit]

theorem fields_joinWords {ws : List (List Char)} (h : ∀ w ∈ ws, IsWord w) (code : String) :
    fields (joinWords ws) ws.length code = .ok (ws.map String.ofList) := by
  have hwords : Decimal.words isAsciiBlank ([' '].intercalate ws) = ws :=
    Decimal.words_intercalate (by decide) (fun w hw => (h w hw).1)
      fun w hw c hc => (blank_of_graphic ((h w hw).2 c hc)).1
  simp [fields, joinWords, hwords]

@[simp] theorem parseU8_text (n : UInt8) (code : String) :
    parseU8 (String.ofList (Decimal.text n.toNat)) code = .ok n := by
  simp [parseU8, parseUnsigned, Decimal.parse_text n.toNat_lt, present]

@[simp] theorem parseU16_text (n : UInt16) (code : String) :
    parseU16 (String.ofList (Decimal.text n.toNat)) code = .ok n := by
  simp [parseU16, parseUnsigned, Decimal.parse_text n.toNat_lt, present]

@[simp] theorem parseU32_text (n : UInt32) (code : String) :
    parseU32 (String.ofList (Decimal.text n.toNat)) code = .ok n := by
  simp [parseU32, parseUnsigned, Decimal.parse_text n.toNat_lt, present]

theorem dropWhile_word (h : IsWord w) (rest : List Char) :
    (w ++ rest).dropWhile isWhitespace = w ++ rest := by
  cases w with
  | nil => exact absurd rfl h.1
  | cons c w => simp [(blank_of_graphic (h.2 c (by simp))).2]

/-- A field up to the blank after it. -/
theorem takePresentationField_word (h : IsWord w) (rest : List Char) :
    takePresentationField (w ++ ' ' :: rest) = some (w, rest.dropWhile isWhitespace) := by
  have hspace : ∀ c ∈ w, isWhitespace c = false := fun c hc => (blank_of_graphic (h.2 c hc)).2
  have hblank : isWhitespace ' ' = true := by decide
  have htake : (w ++ ' ' :: rest).takeWhile (fun c => !isWhitespace c) = w := by
    rw [List.takeWhile_append_of_pos (by simpa using hspace)]
    simp [hblank]
  have hdrop : (w ++ ' ' :: rest).dropWhile (fun c => !isWhitespace c) = ' ' :: rest := by
    rw [List.dropWhile_append_of_pos (by simpa using hspace)]
    simp [hblank]
  simp [takePresentationField, dropWhile_word h, htake, hdrop, h.1, hblank]

theorem isWord_tag (tag : CaaTag) : IsWord tag.value.toList := by
  have hvalid := tag.valid
  simp only [CaaTag.isTag, Bool.and_eq_true, decide_eq_true_eq, List.all_eq_true] at hvalid
  apply isWord_of_isNameChar
  · simpa using hvalid.1.1.1.1
  · intro c hc
    have := hvalid.2 c hc
    simp only [isNameChar, isOwnerChar, Bool.or_eq_true] at this ⊢
    exact .inl (.inl (.inl this))

/-- A single string is read back. -/
theorem parseCharacterStrings_single (string : DnsCharacterString) :
    ∃ strings, parseCharacterStrings (String.ofList (renderCharacterString string.bytes)) =
      .ok strings ∧ strings.segments = [string] := by
  have hfits : DnsTxtValue.fits [string] = true := by
    have hb := string.bounded
    simp only [DnsTxtValue.fits, List.length_singleton, List.map_cons, List.map_nil,
      List.sum_singleton, Bool.and_eq_true, decide_eq_true_eq]
    exact ⟨⟨by simp, by omega⟩, by omega⟩
  have h := parseCharacterStrings_join ⟨[string], hfits⟩
  rw [List.map_cons, List.map_nil, List.intercalate_singleton] at h
  exact ⟨_, h, rfl⟩

variable [Platform]

theorem isWord_fqdn (name : AbsoluteDnsName) : IsWord name.fqdn.toList := by
  apply isWord_of_isNameChar _ (isNameChar_fqdn name)
  simp [AbsoluteDnsName.fqdn]

/-- A rendered value is read back. -/
theorem parseValue_renderValue (v : DnsRecordSetValue) :
    parseValue v.recordType (renderValue v) = .ok v := by
  cases v with
  | a address | aaaa address =>
    simp [parseValue, renderValue, DnsRecordSetValue.recordType, present]
  | cname target | ns target =>
    simp [parseValue, renderValue, DnsRecordSetValue.recordType, absoluteName_fqdn]
  | txt value => simp [parseValue, renderValue, DnsRecordSetValue.recordType, joinWords,
      parseCharacterStrings_join]
  | mx preference exchange =>
    have hfields : fields (joinWords [Decimal.text preference.toNat, exchange.fqdn.toList]) 2
        "invalid_route53_mx_value" = .ok _ :=
      fields_joinWords (by simp [isWord_text, isWord_fqdn]) _
    simp [parseValue, renderValue, DnsRecordSetValue.recordType, hfields, absoluteName_fqdn]
  | srv priority weight port target =>
    have hfields : fields (joinWords [Decimal.text priority.toNat, Decimal.text weight.toNat,
        Decimal.text port.toNat, target.fqdn.toList]) 4 "invalid_route53_srv_value" = .ok _ :=
      fields_joinWords (by simp [isWord_text, isWord_fqdn]) _
    simp [parseValue, renderValue, DnsRecordSetValue.recordType, hfields, absoluteName_fqdn]
  | caa flags tag value =>
    have hquote : (renderCharacterString value.bytes).dropWhile isWhitespace =
        renderCharacterString value.bytes := by
      simp [renderCharacterString, (by decide : isWhitespace '"' = false)]
    have hflags := takePresentationField_word (isWord_text flags.toNat)
    have htag := takePresentationField_word (isWord_tag tag)
    have hstart := dropWhile_word (isWord_tag tag)
    obtain ⟨strings, hstrings, hsegments⟩ := parseCharacterStrings_single value
    simp [parseValue, renderValue, DnsRecordSetValue.recordType, joinWords, parseCaa, hflags,
      hstart, htag, hquote, CaaTag.new_value, hstrings, hsegments]
  | soa primary mailbox serial refresh retry expire minimum =>
    have hfields : fields (joinWords [primary.fqdn.toList, mailbox.fqdn.toList,
        Decimal.text serial.toNat, Decimal.text refresh.toNat, Decimal.text retry.toNat,
        Decimal.text expire.toNat, Decimal.text minimum.toNat]) 7 "invalid_route53_soa_value" =
          .ok _ :=
      fields_joinWords (by simp [isWord_text, isWord_fqdn]) _
    simp [parseValue, renderValue, DnsRecordSetValue.recordType, hfields, absoluteName_fqdn]

/-- Every value is read back from its text, so the texts of one type tell its values apart. -/
theorem value_codec : (∀ v : DnsRecordSetValue, parseValue v.recordType (renderValue v) = .ok v) ∧
      ∀ v w : DnsRecordSetValue, v.recordType = w.recordType → renderValue v = renderValue w →
        v = w := by
  refine ⟨parseValue_renderValue, fun v w htype htext => ?_⟩
  have hv := parseValue_renderValue v
  rw [htype, htext, parseValue_renderValue w] at hv
  exact (Except.ok.inj hv).symm

theorem recordType_of_parseValue {text : String} {v : DnsRecordSetValue}
    (h : parseValue t text = .ok v) : v.recordType = t := by
  cases t with
  | a | aaaa | cname | ns | txt =>
    simp only [parseValue, bind_eq_ok, pure_eq_ok] at h
    obtain ⟨_, _, rfl⟩ := h
    rfl
  | mx | srv | soa =>
    simp only [parseValue, bind_eq_ok] at h
    obtain ⟨words, _, h⟩ := h
    split at h
    · simp only [bind_eq_ok, pure_eq_ok] at h
      grind [DnsRecordSetValue.recordType]
    · cases h
  | caa =>
    simp only [parseValue, parseCaa, bind_eq_ok] at h
    obtain ⟨_, _, _, _, _, _, _, _, strings, _, h⟩ := h
    split at h
    · simp only [pure_eq_ok] at h
      rw [← h]
      rfl
    · cases h

/-- The rendered values of one type are read back. -/
theorem mapM_renderValue {values : List DnsRecordSetValue} (h : ∀ v ∈ values, v.recordType = t) :
    (values.map renderValue).mapM (parseValue t) = .ok values := by
  induction values with
  | nil => rfl
  | cons v values ih =>
    have hv := parseValue_renderValue v
    rw [h v (by simp)] at hv
    simp [hv, ih fun v hv => h v (by simp [hv])]

end Values

section Shape

/-- A policy in the terms Route 53 has for it. -/
def Named : Route53RoutingPolicy → Prop
  | .latency region => region ∈ latencyRegions
  | .geolocation location => mapGeolocation (renderGeolocation location) = .ok location
  | _ => True

/-- A record set has a policy when it has an identifier. -/
inductive Routes : DnsRoutingIdentity → Option Route53RoutingPolicy → Prop
  | simple : Routes .simple none
  | route53 {identifier : String} {policy : Route53RoutingPolicy} :
    Named policy → Routes (.route53 identifier) (some policy)

variable [Platform]

/-- An alias stands in the place of TTL and values. -/
inductive Shaped (t : ProviderDnsRecordType) :
    Option Route53AliasTarget → DnsTtl → Finset DnsRecordSetValue → Prop
  | target {target : Route53AliasTarget} :
    normalizeZoneId target.targetZoneId.value = .ok target.targetZoneId.value →
    Shaped t (some target) .inherited ∅
  | values {ttl : Nat} {values : Finset DnsRecordSetValue} :
    values.Nonempty → (∀ v ∈ values, v.recordType = t) → Shaped t none (.seconds ttl) values

/-- A record set as Route 53 can hold it. -/
inductive Held : ProviderDnsRecordSet → Prop
  | mk {owner : DnsOwnerName} {t : ProviderDnsRecordType} {routing : DnsRoutingIdentity}
    {ttl : DnsTtl} {values : Finset DnsRecordSetValue} {target : Option Route53AliasTarget}
    {policy : Option Route53RoutingPolicy} {healthCheckId : Option Route53HealthCheckId} :
    Routes routing policy → Shaped t target ttl values →
    Held ⟨⟨owner, t, routing⟩, ttl, values, routeExtension target policy healthCheckId⟩

end Shape

section Read

theorem mapGeolocation_render {raw : Route53GeoLocationData} {location : Route53GeoLocation}
    (h : mapGeolocation raw = .ok location) :
    mapGeolocation (renderGeolocation location) = .ok location := by
  unfold mapGeolocation at h
  split at h
  · split at h
    · cases h
      simp_all [mapGeolocation, renderGeolocation]
    · cases h
  · split at h
    · cases h
      simp [mapGeolocation, renderGeolocation]
    · split at h
      · cases h
        simp_all [mapGeolocation, renderGeolocation]
      · cases h
  · split at h
    · cases h
      simp_all [mapGeolocation, renderGeolocation]
    · cases h
  · cases h

variable {record : Route53RecordSet}

theorem named_of_routingPolicies {policies : List Route53RoutingPolicy}
    (h : routingPolicies record = .ok policies) : ∀ policy ∈ policies, Named policy := by
  simp only [routingPolicies, bind_eq_ok, pure_eq_ok] at h
  obtain ⟨failover, hfailover, latency, hlatency, geolocation, hgeolocation, rfl⟩ := h
  intro policy hpolicy
  simp only [List.mem_append] at hpolicy
  rcases hpolicy with (((hw | hf) | hl) | hg) | hm
  · obtain ⟨weight, -, rfl⟩ : ∃ w, record.weight = some w ∧ .weighted w = policy := by
      simpa using hw
    trivial
  · unfold failoverPolicy at hfailover
    split at hfailover <;> cases hfailover <;> simp_all [Named]
  · unfold latencyPolicy at hlatency
    split at hlatency
    · cases hlatency
      cases hl
    · split at hlatency <;> cases hlatency
      obtain rfl := List.mem_singleton.mp hl
      assumption
  · unfold geolocationPolicy at hgeolocation
    split at hgeolocation
    · cases hgeolocation
      cases hg
    · simp only [bind_eq_ok, pure_eq_ok] at hgeolocation
      obtain ⟨location, hlocation, rfl⟩ := hgeolocation
      obtain rfl := List.mem_singleton.mp hg
      exact mapGeolocation_render hlocation
  · split at hm
    · obtain rfl := List.mem_singleton.mp hm
      trivial
    · cases hm

theorem routes_of_mapRouting {routing : DnsRoutingIdentity} {policy : Option Route53RoutingPolicy}
    (h : mapRouting record = .ok (routing, policy)) : Routes routing policy := by
  simp only [mapRouting, bind_eq_ok] at h
  obtain ⟨policies, hpolicies, _, _, h⟩ := h
  split at h
  · cases h
    exact .simple
  · next identifier policy _ hlast =>
    cases h
    exact .route53 (named_of_routingPolicies hpolicies policy (List.mem_of_getLast? hlast))
  · cases h

/-- An identifier that starts with `Z` has no path before it. -/
theorem normalizeZoneId_idem {raw id : String} (h : normalizeZoneId raw = .ok id) :
    normalizeZoneId id = .ok id := by
  obtain ⟨hlen, hhead, hchars⟩ := zoneId_of_normalizeZoneId h
  obtain ⟨rest, hid⟩ : ∃ rest, id.toList = 'Z' :: rest := List.head?_eq_some_iff.mp hhead
  have hpath : ∀ start : List Char, startsWith id (String.ofList ('/' :: start)) = false := by
    intro start
    rw [startsWith, hid, String.toList_ofList]
    rfl
  have hbare := hpath "hostedzone/".toList
  have hdouble := hpath "hostedzone//".toList
  have hself : String.ofList id.toList = id := String.ofList_toList
  simp_all [normalizeZoneId]

variable [Platform]

theorem shaped_of_mapValues {t : ProviderDnsRecordType} {target : Option Route53AliasTarget}
    {ttl : DnsTtl} {values : Finset DnsRecordSetValue}
    (htarget : mapAliasTarget record.aliasTarget = .ok target)
    (h : mapValues t record = .ok (ttl, values)) : Shaped t target ttl values := by
  cases hraw : record.aliasTarget with
  | none =>
    rw [hraw] at htarget
    cases htarget
    simp only [mapValues, hraw, Option.isSome_none, Bool.false_eq_true, if_false, bind_eq_ok,
      require_eq_ok, pure_eq_ok, exists_unit] at h
    obtain ⟨seconds, _, hne, parsed, hparsed, heq⟩ := h
    cases heq
    have hforall := mapM_eq_ok.mp hparsed
    refine .values ?_ ?_
    · rw [List.toFinset_nonempty_iff]
      rintro rfl
      exact hne (List.forall₂_nil_right_iff.mp hforall)
    · intro v hv
      obtain ⟨text, _, htext⟩ := exists_of_forall₂ hforall (List.mem_toFinset.mp hv)
      exact recordType_of_parseValue htext
  | some target =>
    rw [hraw] at htarget
    simp only [mapAliasTarget, bind_eq_ok, orElse_eq_ok, OpaqueId.new_eq_ok, pure_eq_ok] at htarget
    obtain ⟨id, hid, zoneId, rfl, name, _, rfl⟩ := htarget
    simp only [mapValues, hraw, Option.isSome_some, if_true, bind_eq_ok, require_eq_ok,
      pure_eq_ok, exists_unit] at h
    cases h.2
    exact .target (normalizeZoneId_idem hid)

variable [Sha256Base64 ProviderDnsRecordSet] {zone : DnsZoneRef}

/-- What a record that was read passed. -/
theorem held_of_mapRecordSet {raw : Route53RecordSet} {rs : ProviderDnsRecordSet}
    {revision : DnsRecordRevision} (h : mapRecordSet zone raw = .ok (rs, revision)) :
    Held rs ∧ rs.validate zone = .ok () ∧ canonicalRevision rs = .ok revision := by
  simp only [mapRecordSet, bind_eq_ok, orElse_eq_ok, require_eq_ok, pure_eq_ok, exists_unit] at h
  obtain ⟨_, _, _, t, _, _, _, owner, _, ⟨routing, policy⟩, hrouting, target, htarget, healthCheckId,
    _, ⟨ttl, values⟩, hvalues, hvalid, revision, hrevision, heq⟩ := h
  cases heq
  exact ⟨.mk (routes_of_mapRouting hrouting) (shaped_of_mapValues htarget hvalues), hvalid,
    hrevision⟩

end Read

section Render

@[simp] theorem mapRecordType_render (t : ProviderDnsRecordType) :
    mapRecordType (renderRecordType t) = .ok t := by
  cases t <;> rfl

@[simp] theorem mapHealthCheckId_render (healthCheckId : Option Route53HealthCheckId) :
    mapHealthCheckId (healthCheckId.map OpaqueId.value) = .ok healthCheckId := by
  cases healthCheckId with
  | none => rfl
  | some id => simp [mapHealthCheckId, OpaqueId.new_eq_ok]

/-- No policy is named yet. -/
structure Plain (record : Route53RecordSet) : Prop where
  weight : record.weight = none
  failover : record.failover = none
  region : record.region = none
  geolocation : record.geolocation = none
  multivalueAnswer : record.multivalueAnswer = none

variable {record : Route53RecordSet}

theorem routingPolicies_plain (h : Plain record) : routingPolicies record = .ok [] := by
  simp [routingPolicies, h.weight, h.failover, h.region, h.geolocation, h.multivalueAnswer,
    failoverPolicy, latencyPolicy, geolocationPolicy]

/-- The one policy that a rendered record names. -/
theorem routingPolicies_render {policy : Route53RoutingPolicy} (h : Plain record)
    (hnamed : Named policy) :
    routingPolicies (renderPolicy record (some policy)) = .ok [policy] := by
  obtain ⟨hw, hf, hr, hg, hm⟩ := h
  cases policy with
  | weighted weight =>
    simp [routingPolicies, renderPolicy, hf, hr, hg, hm, failoverPolicy, latencyPolicy,
      geolocationPolicy]
  | failover role =>
    cases role <;> simp [routingPolicies, renderPolicy, renderFailoverRole, hw, hr, hg, hm,
      failoverPolicy, latencyPolicy, geolocationPolicy]
  | latency region =>
    have hregion : region ∈ latencyRegions := hnamed
    simp [routingPolicies, renderPolicy, hw, hf, hg, hm, failoverPolicy, latencyPolicy,
      geolocationPolicy, hregion]
  | geolocation location =>
    have hlocation : mapGeolocation (renderGeolocation location) = .ok location := hnamed
    simp [routingPolicies, renderPolicy, hw, hf, hr, hm, failoverPolicy, latencyPolicy,
      geolocationPolicy, hlocation]
  | multivalue =>
    simp [routingPolicies, renderPolicy, hw, hf, hr, hg, failoverPolicy, latencyPolicy,
      geolocationPolicy]

/-- Rendering a policy sets the fields that name it, and no other. -/
theorem renderPolicy_frame (record : Route53RecordSet) (policy : Option Route53RoutingPolicy) :
    ∃ w f r g m, renderPolicy record policy =
      { record with
        weight := w, failover := f, region := r, geolocation := g, multivalueAnswer := m } := by
  rcases policy with _ | (_ | _ | _ | _ | _) <;> exact ⟨_, _, _, _, _, rfl⟩

/-- The policy of a record is read back with its identifier. -/
theorem mapRouting_render {routing : DnsRoutingIdentity} {policy : Option Route53RoutingPolicy}
    (h : Plain record) (hid : record.setIdentifier = renderSetIdentifier routing)
    (hroutes : Routes routing policy) :
    mapRouting (renderPolicy record policy) = .ok (routing, policy) := by
  have hsame : (renderPolicy record policy).setIdentifier = record.setIdentifier := by
    obtain ⟨_, _, _, _, _, hframe⟩ := renderPolicy_frame record policy
    rw [hframe]
  cases hroutes with
  | simple =>
    have hplain : routingPolicies (renderPolicy record none) = .ok [] := routingPolicies_plain h
    simp [mapRouting, hplain, hsame, hid, renderSetIdentifier, pure, Except.pure]
  | route53 hnamed =>
    simp [mapRouting, routingPolicies_render h hnamed, hsame, hid, renderSetIdentifier,
      pure, Except.pure]

variable [Platform]

def renderTtl : DnsTtl → Option Nat
  | .seconds ttl => some ttl
  | _ => none

/-- The record set that a held one is rendered as. -/
def writtenAs (owner : DnsOwnerName) (t : ProviderDnsRecordType) (routing : DnsRoutingIdentity)
    (ttl : DnsTtl) (values : Finset DnsRecordSetValue) (target : Option Route53AliasTarget)
    (policy : Option Route53RoutingPolicy) (healthCheckId : Option Route53HealthCheckId) :
    Route53RecordSet :=
  renderPolicy
    { name := owner.fqdn
      recordType := renderRecordType t
      ttl := renderTtl ttl
      resourceRecords := (inOrder values).map renderValue
      aliasTarget := target.map renderAliasTarget
      healthCheckId := healthCheckId.map OpaqueId.value
      setIdentifier := renderSetIdentifier routing } policy

variable {owner : DnsOwnerName} {t : ProviderDnsRecordType} {routing : DnsRoutingIdentity}
  {ttl : DnsTtl} {values : Finset DnsRecordSetValue} {target : Option Route53AliasTarget}
  {policy : Option Route53RoutingPolicy} {healthCheckId : Option Route53HealthCheckId}

theorem renderDraft_held (hroutes : Routes routing policy) (hshaped : Shaped t target ttl values) :
    renderDraft ⟨⟨owner, t, routing⟩, ttl, values, routeExtension target policy healthCheckId⟩ =
      .ok (writtenAs owner t routing ttl values target policy healthCheckId) := by
  cases hroutes with
  | simple => cases hshaped with
    | target _ => simp [renderDraft, routeExtension, renderExtension, renderValues, writtenAs,
        renderPolicy, renderSetIdentifier, renderTtl]
    | values _ _ => cases healthCheckId <;> rfl
  | @route53 identifier policy _ => cases hshaped with
    | target _ => cases policy <;> simp [renderDraft, routeExtension, renderExtension,
        renderValues, writtenAs, renderPolicy, renderSetIdentifier, renderTtl]
    | values _ _ => cases policy <;> rfl

theorem mapAliasTarget_written (hshaped : Shaped t target ttl values) :
    mapAliasTarget (target.map renderAliasTarget) = .ok target := by
  cases hshaped with
  | @target target hid =>
    have hnew := OpaqueId.new_eq_ok.mpr (rfl : target.targetZoneId.value = _)
    simp [mapAliasTarget, renderAliasTarget, hid, hnew, absoluteName_fqdn]
  | values _ _ => rfl

theorem mapValues_written (hshaped : Shaped t target ttl values) :
    mapValues t (writtenAs owner t routing ttl values target policy healthCheckId) =
      .ok (ttl, values) := by
  obtain ⟨_, _, _, _, _, hframe⟩ := renderPolicy_frame _ policy
  rw [writtenAs, hframe]
  cases hshaped with
  | target _ => simp [mapValues, renderTtl]
  | values hne htype =>
    have hsorted : ∀ v ∈ values.sort, v.recordType = t := by simpa using htype
    have hread := mapM_renderValue hsorted
    have hnonempty : values.sort ≠ [] := by
      rw [← List.toFinset_nonempty_iff, Finset.sort_toFinset]
      exact hne
    simp [mapValues, renderTtl, present, hread, hnonempty]

variable [Sha256Base64 ProviderDnsRecordSet] {zone : DnsZoneRef}

/-- A held record set is read back from what it is rendered as. -/
theorem mapRecordSet_written (hroutes : Routes routing policy)
    (hshaped : Shaped t target ttl values) {revision : DnsRecordRevision}
    {rs : ProviderDnsRecordSet}
    (hrs : rs = ⟨⟨owner, t, routing⟩, ttl, values, routeExtension target policy healthCheckId⟩)
    (hvalid : rs.validate zone = .ok ()) (hrevision : canonicalRevision rs = .ok revision) :
    mapRecordSet zone (writtenAs owner t routing ttl values target policy healthCheckId) =
      .ok (rs, revision) := by
  have hrouting : mapRouting (writtenAs owner t routing ttl values target policy healthCheckId) =
      .ok (routing, policy) :=
    mapRouting_render ⟨rfl, rfl, rfl, rfl, rfl⟩ rfl hroutes
  have hvalues : mapValues t (writtenAs owner t routing ttl values target policy healthCheckId) =
      .ok (ttl, values) :=
    mapValues_written hshaped
  obtain ⟨_, _, _, _, _, hframe⟩ := renderPolicy_frame _ policy
  rw [writtenAs, hframe] at hrouting hvalues ⊢
  subst hrs
  simp [mapRecordSet, hrouting, hvalues, mapAliasTarget_written hshaped, decode_ownerFqdn,
    DnsOwnerName.new_fqdn, hvalid, hrevision]

/-- Everything observed in Route 53 can be written back. -/
theorem observed_rendered {raw : Route53RecordSet} {rs : ProviderDnsRecordSet}
    {revision : DnsRecordRevision} (h : mapRecordSet zone raw = .ok (rs, revision)) :
    ∃ rendered, renderRecordSet zone rs = .ok rendered ∧
      mapRecordSet zone rendered = .ok (rs, revision) := by
  obtain ⟨hheld, hvalid, hrevision⟩ := held_of_mapRecordSet h
  cases hheld with
  | mk hroutes hshaped =>
    have hread := mapRecordSet_written hroutes hshaped rfl hvalid hrevision
    refine ⟨_, ?_, hread⟩
    simp [renderRecordSet, hvalid, renderDraft_held hroutes hshaped, hread]

end Render

section Example

attribute [local instance] asciiPlatform

attribute [local instance] sameDigest

def hostedZone : DnsZoneRef where
  providerAccountId := ⟨"account"⟩
  provider := .aws
  zoneId := ⟨"Z0123456789", by decide⟩
  apex := ⟨"example.org", by decide⟩
  visibility := .publicZone

/-- A weighted record set with an escaped name and escapes in its text. -/
def weightedTxt : Route53RecordSet where
  name := "\\052.Example.org."
  recordType := "TXT"
  ttl := some 300
  resourceRecords := ["\"a\\\"b\"  \"\\303\\251\""]
  setIdentifier := some "blue"
  weight := some 10
  multivalueAnswer := some false
  healthCheckId := some "check"

theorem weightedTxt_rendered :
    ∃ rs revision, mapRecordSet hostedZone weightedTxt = .ok (rs, revision) ∧
      ∃ rendered, renderRecordSet hostedZone rs = .ok rendered ∧
        mapRecordSet hostedZone rendered = .ok (rs, revision) := by
  have hsome : (mapRecordSet hostedZone weightedTxt).toOption.isSome = true := by decide +kernel
  obtain ⟨⟨rs, revision⟩, hread⟩ := Option.isSome_iff_exists.mp hsome
  have hmap := toOption_eq_some.mp hread
  exact ⟨rs, revision, hmap, observed_rendered hmap⟩

end Example

end EdgionCenter.Route53
