import EdgionCenter.Admin.Target
import EdgionCenter.Proxy.AtMostOnce

/-! The request target that a proxied request gets at the controller. -/
namespace EdgionCenter

open Transition

/-! ### The handler -/

def proxyRequestHeaderAllowlist : List String :=
  ["accept", "content-type", "if-match", "user-agent"]

/-- A request as the router gives it to the handler: its path parameters are not decoded yet. -/
structure ProxyRequest where
  controllerIdRaw : String
  rest : String
  query : Option String
  method : String
  headers : List (String × String)
  body : List UInt8
  deriving DecidableEq

/-- `HeaderValue::to_str` takes only visible ASCII and tabs. -/
def isHeaderText (value : String) : Bool :=
  value.toList.all fun c => (32 ≤ c.toNat && c.toNat < 127) || c = '\t'

def proxyRequestHeaders (headers : List (String × String)) : List (String × String) :=
  headers.filter fun h => proxyRequestHeaderAllowlist.contains (asciiLower h.1) && isHeaderText h.2

def proxyForwardPath (rest : String) (query : Option String) : String :=
  let path := if startsWith rest "/" then rest else "/" ++ rest
  match query with
  | some query => path ++ "?" ++ query
  | none => path

namespace ProxyRequest

/-- The controller and the operation; the request is refused if a parameter is not UTF-8. -/
def operation (request : ProxyRequest) : Option (String × ForwardHttpOperation) := do
  let controllerId ← percentDecodeStr request.controllerIdRaw
  let rest ← percentDecodeStr request.rest
  return (replaceTilde controllerId,
    ⟨request.method, proxyForwardPath rest request.query, proxyRequestHeaders request.headers,
      request.body⟩)

/-- The segments of the rest as the client sent them. -/
def segments (request : ProxyRequest) : List (List UInt8) := (utf8Bytes request.rest).splitOn 47

/-- What the client asks the controller for. -/
def target (request : ProxyRequest) : RequestTarget :=
  ⟨request.segments.map percentDecode, request.query.map utf8Bytes⟩

/-- The client sent a request target. -/
structure Sent (request : ProxyRequest) : Prop where
  rest : ∀ s ∈ request.segments, isEncoded isSegmentByte s = true
  query : ∀ q, request.query = some q → isEncoded isQueryByte (utf8Bytes q) = true

/-- Decoded, the segments hold nothing that must be encoded, and the first one is not empty. -/
structure Plain (request : ProxyRequest) : Prop where
  first : (utf8Bytes request.rest).head? ≠ some 47
  segments : ∀ s ∈ request.target.path, s.all isSegmentByte = true

end ProxyRequest

/-! ### What the controller gets -/

section Bytes

/-- Only a slash is encoded by its byte. -/
theorem head_utf8EncodeChar {c : Char} :
    ∃ b, (String.utf8EncodeChar c).head? = some b ∧ (b = 47 ↔ c = '/') := by
  have hbyte : ∀ n, 128 ≤ n → n < 256 → UInt8.ofNat n ≠ 47 := by
    intro n hlow hhigh h
    have hnat := congrArg UInt8.toNat h
    rw [UInt8.toNat_ofNat_of_lt' hhigh] at hnat
    change n = 47 at hnat
    omega
  have hne : ¬ c.toNat < 128 → c ≠ '/' := by
    rintro h rfl
    exact h (by decide)
  have hval : c.val.toNat = c.toNat := rfl
  by_cases hascii : c.toNat < 128
  · rw [utf8EncodeChar_of_ascii hascii]
    refine ⟨_, rfl, ?_⟩
    rw [← UInt8.toNat_inj, UInt8.toNat_ofNat_of_lt' (lt_trans hascii (by decide)),
      ← Char.toNat_inj]
    rfl
  · simp only [String.utf8EncodeChar, hval]
    rw [if_neg (by omega)]
    split_ifs with h₁ h₂
    · exact ⟨_, rfl, iff_of_false (hbyte _ (by omega) (by omega)) (hne hascii)⟩
    · exact ⟨_, rfl, iff_of_false (hbyte _ (by omega) (by omega)) (hne hascii)⟩
    · exact ⟨_, rfl, iff_of_false (hbyte _ (by omega) (by omega)) (hne hascii)⟩

theorem startsWith_slash_iff (s : String) :
    startsWith s "/" = true ↔ (utf8Bytes s).head? = some 47 := by
  unfold startsWith utf8Bytes utf8
  cases s.toList with
  | nil => simp
  | cons c cs =>
    obtain ⟨b, hb, hslash⟩ := head_utf8EncodeChar (c := c)
    rw [List.flatMap_cons, List.head?_append, hb, Option.some_or, Option.some.injEq, hslash]
    change ('/' == c && true) = true ↔ _
    rw [Bool.and_true, beq_iff_eq, eq_comm]

/-- The bytes of the path that is forwarded, before its query. -/
def forwardBytes (rest : List UInt8) : List UInt8 :=
  if rest.head? = some 47 then rest else 47 :: rest

theorem utf8Bytes_proxyForwardPath (rest : String) (query : Option String) :
    utf8Bytes (proxyForwardPath rest query) =
      forwardBytes (utf8Bytes rest) ++ querySuffix (query.map utf8Bytes) := by
  have hpath : utf8Bytes (if startsWith rest "/" then rest else "/" ++ rest) =
      forwardBytes (utf8Bytes rest) := by
    unfold forwardBytes
    by_cases h : startsWith rest "/" = true
    · rw [if_pos h, if_pos ((startsWith_slash_iff rest).mp h)]
    · rw [if_neg h, if_neg fun hhead => h ((startsWith_slash_iff rest).mpr hhead),
        utf8Bytes_append]
      rfl
  unfold proxyForwardPath
  cases query with
  | none => rw [hpath, Option.map_none, querySuffix, List.append_nil]
  | some query =>
    have hmark : utf8Bytes "?" = [63] := by decide
    dsimp only
    rw [utf8Bytes_append, utf8Bytes_append, hpath, hmark, Option.map_some, querySuffix,
      List.append_assoc, List.singleton_append]

end Bytes

section Rest

variable {raw : List (List UInt8)}

theorem percentDecode_intercalate (h : ∀ s ∈ raw, isEncoded isSegmentByte s = true) :
    percentDecode ([47].intercalate raw) = [47].intercalate (raw.map percentDecode) := by
  induction raw with
  | nil => rfl
  | cons s raw ih =>
    have hs := h s List.mem_cons_self
    cases raw with
    | nil => simp [List.intercalate]
    | cons t raw =>
      rw [List.intercalate_cons_cons, List.map_cons, List.map_cons, List.intercalate_cons_cons,
        List.append_assoc, percentDecode_append segmentByte_percent hs, List.singleton_append,
        percentDecode_cons (by decide), ih fun u hu => h u (List.mem_cons_of_mem _ hu)]
      simp

/-- Something encoded does not decode to nothing. -/
theorem percentDecode_eq_nil {s : List UInt8} (h : isEncoded isSegmentByte s = true) :
    percentDecode s = [] ↔ s = [] := by
  rcases isEncoded_cases segmentByte_percent h with rfl | ⟨b, rest, rfl, hb, -⟩ |
    ⟨high, low, rest, x, y, rfl, hx, hy, -⟩
  · simp [percentDecode]
  · simp [percentDecode_cons hb]
  · simp [percentDecode_triplet hx hy]

/-- Segments that do not start with a slash are joined to a text that does only if the first one is
empty. -/
theorem head_intercalate {segs : List (List UInt8)} (h : ∀ s ∈ segs, s.head? ≠ some 47) :
    ([47].intercalate segs).head? = some 47 ↔ ∃ rest, rest ≠ [] ∧ segs = [] :: rest := by
  cases segs with
  | nil => simp [List.intercalate]
  | cons s segs =>
    cases s with
    | nil =>
      cases segs with
      | nil => simp [List.intercalate]
      | cons t segs => simp [List.intercalate_cons_cons]
    | cons b s =>
      have hb : b ≠ 47 := by simpa using h _ List.mem_cons_self
      cases segs with
      | nil => simp [List.intercalate, hb]
      | cons t segs => simp [List.intercalate_cons_cons, hb]

theorem head_ne_slash_of_encoded {s : List UInt8} (h : isEncoded isSegmentByte s = true) :
    s.head? ≠ some 47 := by
  rcases isEncoded_cases segmentByte_percent h with rfl | ⟨b, rest, rfl, -, hb, -⟩ |
    ⟨high, low, rest, x, y, rfl, -⟩
  · simp
  · rintro hslash
    obtain rfl : b = 47 := by simpa using hslash
    rw [segmentByte_slash] at hb
    cases hb
  · simp

/-- The rest comes through as it was if it does not start with a slash and its segments are
plain. -/
theorem parsePath_forwardBytes (hne : raw ≠ []) (h : ∀ s ∈ raw, isEncoded isSegmentByte s = true) :
    parsePath (forwardBytes ([47].intercalate (raw.map percentDecode))) =
        some (raw.map percentDecode) ↔
      ([47].intercalate raw).head? ≠ some 47 ∧
        ∀ s ∈ raw.map percentDecode, s.all isSegmentByte = true := by
  have hne' : raw.map percentDecode ≠ [] := by simpa using hne
  have hraw := head_intercalate fun s hs => head_ne_slash_of_encoded (h s hs)
  unfold forwardBytes
  split_ifs with hhead
  · -- the slash that the rest starts with is taken for the root
    refine iff_of_false ?_ ?_
    · intro hparse
      have := (length_of_parsePath hparse).1
      rw [length_intercalate hne'] at this
      exact absurd this (lt_irrefl _)
    · rintro ⟨hfirst, hplain⟩
      obtain ⟨rest, hrest, hsegs⟩ := (head_intercalate fun s hs => head_ne_slash_of_encoded
        (encoded_of_plain segmentByte_percent (hplain s hs)).1).mp hhead
      obtain ⟨s, raw', rfl, hs, rfl⟩ := List.map_eq_cons_iff.mp hsegs
      obtain rfl := (percentDecode_eq_nil (h s List.mem_cons_self)).mp hs
      exact hfirst (hraw.mpr ⟨raw', by simpa using hrest, rfl⟩)
  · rw [parsePath_join hne']
    refine ⟨fun hplain => ⟨fun hfirst => hhead ?_, hplain⟩, fun h => h.2⟩
    obtain ⟨rest, hrest, rfl⟩ := hraw.mp hfirst
    refine (head_intercalate fun s hs => head_ne_slash_of_encoded
      (encoded_of_plain segmentByte_percent (hplain s hs)).1).mpr ⟨rest.map percentDecode, ?_, ?_⟩
    · simpa using hrest
    · rw [List.map_cons, percentDecode]

end Rest

/-! ### Along a whole call -/

/-- The controller gets the segments and the query that the client sent exactly if the decoded
segments need no encoding and do not start with a slash. -/
theorem proxy_preserves_target {request : ProxyRequest} {controllerId : String}
    {operation : ForwardHttpOperation} {p : ProxyForwarder} {events : List ProxyEvent}
    {s : ProxyCall} (hsent : request.Sent)
    (hoperation : request.operation = some (controllerId, operation))
    (hrun : Run (ProxyStep p controllerId operation) .start events s) :
    ∀ m ∈ s.enqueued, parseTarget (utf8Bytes m.operation.path) = some request.target ↔
      request.Plain := by
  intro m hm
  -- whichever replica enqueues it, the path is the one the handler made
  have hpath : m.operation.path = operation.path := by
    rw [((run_carries hrun).messages m hm).2]
    rfl
  unfold ProxyRequest.operation at hoperation
  simp only [Option.bind_eq_bind, Option.bind_eq_some_iff, Option.pure_def, Option.some.injEq,
    Prod.mk.injEq] at hoperation
  obtain ⟨-, -, rest, hrest, -, rfl⟩ := hoperation
  have hjoin : [47].intercalate request.segments = utf8Bytes request.rest :=
    List.intercalate_splitOn 47
  have hdecoded : utf8Bytes rest = [47].intercalate (request.segments.map percentDecode) := by
    rw [utf8Bytes_of_fromUtf8 hrest, ← hjoin, percentDecode_intercalate hsent.rest]
  have hquery : ∀ q, request.query.map utf8Bytes = some q → isEncoded isQueryByte q = true := by
    intro q hq
    obtain ⟨text, htext, rfl⟩ := Option.map_eq_some_iff.mp hq
    exact hsent.query text htext
  have hne : request.segments ≠ [] := List.splitOn_ne_nil _ _
  rw [hpath, utf8Bytes_proxyForwardPath, ProxyRequest.target, parseTarget_append hquery, hdecoded,
    parsePath_forwardBytes hne hsent.rest, hjoin]
  constructor
  · rintro ⟨hfirst, hplain⟩
    exact ⟨hfirst, hplain⟩
  · rintro ⟨hfirst, hplain⟩
    exact ⟨hfirst, hplain⟩

/-- A session of this replica takes the request. -/
theorem local_run (controllerId : String) (operation : ForwardHttpOperation) :
    ∃ (events : List ProxyEvent) (s : ProxyCall),
      Run (ProxyStep ⟨30, none⟩ controllerId operation) .start events s ∧
        s.enqueued = [⟨.caller, controllerId, operation.sanitized⟩] :=
  ⟨_, _, .step (.caller (.check rfl (some ⟨7, true, none⟩))) <|
    .step (.caller (.look rfl (some ⟨7, true, none⟩))) <|
    .step (.caller (.dispatch rfl (e := .accepted) rfl)) (.refl _), rfl⟩

def getRest (rest : String) : ProxyRequest := ⟨"edge-1", rest, none, "GET", [], []⟩

theorem operation_getRest {rest decoded : String}
    (h : percentDecode (utf8Bytes rest) = utf8Bytes decoded) : (getRest rest).operation =
      some ("edge-1", ⟨"GET", proxyForwardPath decoded none, [], []⟩) := by
  have hcontroller : percentDecodeStr "edge-1" = some "edge-1" := fromUtf8_utf8Bytes "edge-1"
  have hrest : percentDecodeStr rest = some decoded := by
    rw [percentDecodeStr, h, fromUtf8_utf8Bytes]
  unfold ProxyRequest.operation getRest
  simp only [hcontroller, hrest, Option.bind_eq_bind, Option.bind_some, Option.pure_def]
  rfl

/-- An encoded question mark starts a query at the controller. -/
theorem encoded_question_mark_lost : ∃ (operation : ForwardHttpOperation)
    (events : List ProxyEvent) (s : ProxyCall) (m : HttpProxyMessage),
    (getRest "a%3Fb").Sent ∧ (getRest "a%3Fb").operation = some ("edge-1", operation) ∧
      Run (ProxyStep ⟨30, none⟩ "edge-1" operation) .start events s ∧ m ∈ s.enqueued ∧
      (getRest "a%3Fb").target = ⟨[utf8Bytes "a?b"], none⟩ ∧
      parseTarget (utf8Bytes m.operation.path) =
        some ⟨[utf8Bytes "a"], some (utf8Bytes "b")⟩ := by
  obtain ⟨events, s, hrun, henqueued⟩ :=
    local_run "edge-1" ⟨"GET", proxyForwardPath "a?b" none, [], []⟩
  have hsegments : (getRest "a%3Fb").segments = [utf8Bytes "a%3Fb"] := by decide
  refine ⟨_, events, s, _, ⟨?_, fun _ h => by cases h⟩, operation_getRest (by decide), hrun,
    henqueued ▸ List.mem_singleton_self _, by decide, by decide⟩
  rw [hsegments]
  decide

theorem proxy_preserves_target_plain : ∃ (operation : ForwardHttpOperation)
    (events : List ProxyEvent) (s : ProxyCall) (m : HttpProxyMessage),
    (getRest "api/v1/x%2Dy").Sent ∧
      (getRest "api/v1/x%2Dy").operation = some ("edge-1", operation) ∧
      Run (ProxyStep ⟨30, none⟩ "edge-1" operation) .start events s ∧ m ∈ s.enqueued ∧
      parseTarget (utf8Bytes m.operation.path) = some (getRest "api/v1/x%2Dy").target := by
  obtain ⟨events, s, hrun, henqueued⟩ :=
    local_run "edge-1" ⟨"GET", proxyForwardPath "api/v1/x-y" none, [], []⟩
  have hsegments : (getRest "api/v1/x%2Dy").segments =
      [utf8Bytes "api", utf8Bytes "v1", utf8Bytes "x%2Dy"] := by decide
  have hsent : (getRest "api/v1/x%2Dy").Sent := by
    refine ⟨?_, fun _ h => by cases h⟩
    rw [hsegments]
    decide
  have hoperation : (getRest "api/v1/x%2Dy").operation =
      some ("edge-1", ⟨"GET", proxyForwardPath "api/v1/x-y" none, [], []⟩) :=
    operation_getRest (by decide)
  have hplain : (getRest "api/v1/x%2Dy").Plain := ⟨by decide, by
    rw [ProxyRequest.target, hsegments]
    decide⟩
  have hm := henqueued ▸ List.mem_singleton_self _
  exact ⟨_, events, s, _, hsent, hoperation, hrun, hm,
    (proxy_preserves_target hsent hoperation hrun _ hm).mpr hplain⟩

end EdgionCenter
