import EdgionCenter.Lib.Segments
import EdgionCenter.Text

/-! Request paths: their segments, percent-encoding, and the patterns of the router. -/
namespace EdgionCenter

/-- `str::split('/')`. -/
def segments (path : String) : List String := (path.toList.splitOn '/').map String.ofList

/-- `str::strip_prefix`. -/
def stripStart (s start : String) : Option String :=
  if startsWith s start then some (String.ofList (s.toList.drop start.toList.length)) else none

/-- `str::strip_suffix`. -/
def stripEnd (s ending : String) : Option String :=
  if endsWith s ending then
    some (String.ofList (s.toList.take (s.toList.length - ending.toList.length)))
  else none

section Segments

variable {path base other : String} {ss : List String} {cs : List Char}

/-- The segments of a literal, without a detour through its bytes. -/
theorem segments_ofList (cs : List Char) (h : (cs.splitOn '/').map String.ofList = ss) :
    segments (String.ofList cs) = ss := by
  rw [← h, segments, String.toList_ofList]

/-- A text with a slash at its end, in front of which are the segments. -/
theorem exists_slash (hslash : cs.getLast? = some '/')
    (h : (cs.dropLast.splitOn '/').map String.ofList = ss) :
    ∃ base, String.ofList cs = base ++ "/" ∧ segments base = ss := by
  refine ⟨String.ofList cs.dropLast, ?_, segments_ofList _ h⟩
  nth_rewrite 1 [← List.dropLast_append_getLast? _ hslash]
  simp

theorem map_toList_segments : (segments path).map String.toList = path.toList.splitOn '/' := by
  simp [segments]

theorem segments_inj : segments path = segments other ↔ path = other := by
  refine ⟨fun h => ?_, fun h => h ▸ rfl⟩
  have hl := congrArg (List.map String.toList) h
  rw [map_toList_segments, map_toList_segments, Segments.splitOn_inj] at hl
  exact String.toList_inj.mp hl

theorem segments_append_slash :
    segments (base ++ "/" ++ other) = segments base ++ segments other := by
  have hl : (base ++ "/" ++ other).toList = base.toList ++ '/' :: other.toList := by simp
  rw [segments, hl, List.splitOn_append_cons_self, List.map_append, segments, segments]

theorem exists_append_slash {rest : List String} (hrest : rest ≠ [])
    (h : segments path = segments base ++ rest) :
    ∃ other, path = base ++ "/" ++ other ∧ segments other = rest := by
  have hl := congrArg (List.map String.toList) h
  rw [List.map_append, map_toList_segments, map_toList_segments] at hl
  obtain ⟨cs, hcs, hr⟩ := Segments.exists_of_splitOn_eq_append (by simpa using hrest) hl
  refine ⟨String.ofList cs, ?_, ?_⟩
  · apply String.toList_inj.mp
    simp [hcs]
  · rw [segments, String.toList_ofList, hr]
    simp

theorem startsWith_slash : startsWith path (base ++ "/") = true ↔
    segments base <+: segments path ∧ (segments base).length < (segments path).length := by
  have hbase : (base ++ "/").toList = base.toList ++ ['/'] := by simp
  rw [startsWith, List.isPrefixOf_iff_prefix, hbase, Segments.append_sep_prefix_iff]
  constructor
  · rintro ⟨rest, hrest, h⟩
    have hs : segments path = segments base ++ rest.map String.ofList := by
      rw [segments, h, List.map_append, segments]
    rw [hs, List.length_append, List.length_map]
    have hpos := List.length_pos_of_ne_nil hrest
    exact ⟨List.prefix_append _ _, by omega⟩
  · rintro ⟨⟨rest, hrest⟩, hlen⟩
    have hl := congrArg (List.map String.toList) hrest.symm
    rw [List.map_append, map_toList_segments, map_toList_segments] at hl
    refine ⟨rest.map String.toList, ?_, hl⟩
    rintro hnil
    obtain rfl := List.map_eq_nil_iff.mp hnil
    simp [← hrest] at hlen

theorem stripStart_append : stripStart (base ++ other) base = some other := by
  have h : startsWith (base ++ other) base = true := by
    rw [startsWith, List.isPrefixOf_iff_prefix, String.toList_append]
    exact List.prefix_append _ _
  rw [stripStart, if_pos h, String.toList_append, List.drop_left, String.ofList_toList]

theorem stripStart_eq_none (h : ¬ startsWith path base = true) : stripStart path base = none :=
  if_neg h

/-- `strip_prefix` on segments: something must follow. -/
def stripSegments (base path : List String) : Option (List String) :=
  if base <+: path ∧ base.length < path.length then some (path.drop base.length) else none

theorem map_segments_stripStart (hslash : cs.getLast? = some '/')
    (h : (cs.dropLast.splitOn '/').map String.ofList = ss) :
    (stripStart path (String.ofList cs)).map segments = stripSegments ss (segments path) := by
  obtain ⟨base, hbase, rfl⟩ := exists_slash hslash h
  rw [hbase]
  by_cases hs : startsWith path (base ++ "/") = true
  · have hbelow := startsWith_slash.mp hs
    obtain ⟨rest, hrest⟩ := hbelow.1
    have hne : rest ≠ [] := by
      rintro rfl
      simp [← hrest] at hbelow
    obtain ⟨other, rfl, ho⟩ := exists_append_slash hne hrest.symm
    rw [stripStart_append, stripSegments, if_pos hbelow, ← hrest, List.drop_left, Option.map_some,
      ho]
  · rw [stripStart_eq_none hs, stripSegments, if_neg fun h => hs (startsWith_slash.mpr h)]
    rfl

theorem segments_eq_singleton (h : '/' ∉ path.toList) : segments path = [path] := by
  simp [segments, List.splitOn_eq_singleton h]

theorem not_mem_of_mem_segments (h : other ∈ segments path) : '/' ∉ other.toList := by
  obtain ⟨cs, hcs, rfl⟩ := List.mem_map.mp h
  rw [String.toList_ofList]
  exact Segments.not_mem_of_mem_splitOn hcs

theorem stripEnd_eq_some {ending : String} :
    stripEnd path ending = some other ↔ path = other ++ ending := by
  constructor
  · intro h
    by_cases he : endsWith path ending = true
    · rw [stripEnd, if_pos he] at h
      obtain rfl := Option.some.inj h
      obtain ⟨front, hf⟩ := List.isSuffixOf_iff_suffix.mp he
      apply String.toList_inj.mp
      simp [← hf]
    · rw [stripEnd, if_neg he] at h
      cases h
  · rintro rfl
    have he : endsWith (other ++ ending) ending = true := by
      rw [endsWith, List.isSuffixOf_iff_suffix, String.toList_append]
      exact List.suffix_append _ _
    rw [stripEnd, if_pos he]
    simp

end Segments

section Percent

/-- `char::to_digit(16)` of a byte. -/
def hexDigit (b : UInt8) : Option UInt8 :=
  if 48 ≤ b ∧ b ≤ 57 then some (b - 48)
  else if 97 ≤ b ∧ b ≤ 102 then some (b - 87)
  else if 65 ≤ b ∧ b ≤ 70 then some (b - 55)
  else none

/-- `percent_encoding::percent_decode`; a percent sign without two digits stands for itself. -/
def percentDecode : List UInt8 → List UInt8
  | [] => []
  | [b] => [b]
  | [b, c] => [b, c]
  | b :: high :: low :: rest =>
    if b = 37 then
      match hexDigit high, hexDigit low with
      | some h, some l => (h * 16 + l) :: percentDecode rest
      | _, _ => b :: percentDecode (high :: low :: rest)
    else b :: percentDecode (high :: low :: rest)

/-- `percent_decode_str(..).decode_utf8()`. -/
def percentDecodeStr (s : String) : Option String := fromUtf8 (percentDecode (utf8Bytes s))

/-- `str::replace('~', "/")`. -/
def replaceTilde (s : String) : String :=
  String.ofList (s.toList.map fun c => if c = '~' then '/' else c)

end Percent

section Patterns

/-- A part of a route: one segment, or all the rest. -/
inductive PathPart
  | literal (segment : String)
  | param (name : String)
  | rest (name : String)
  deriving DecidableEq

/-- The raw values of the parameters. -/
def matchParts : List PathPart → List String → Option (List String)
  | [], [] => some []
  | .literal s :: parts, segment :: path => if s = segment then matchParts parts path else none
  | .param _ :: parts, segment :: path =>
    if segment = "" then none else (segment :: ·) <$> matchParts parts path
  | [.rest _], path =>
    if "/".intercalate path = "" then none else some ["/".intercalate path]
  | _, _ => none

/-- A path starts with a slash, so its first segment is empty. -/
def matchPath (parts : List PathPart) (path : String) : Option (List String) :=
  matchParts (.literal "" :: parts) (segments path)

/-- What holds of the parameters and the segments of every path that a route matches. -/
def EveryMatch : List PathPart → (List String → List String → Prop) → Prop
  | [], Q => Q [] []
  | .literal s :: parts, Q => EveryMatch parts fun raw path => Q raw (s :: path)
  | .param _ :: parts, Q => ∀ segment, segment ≠ "" →
      EveryMatch parts fun raw path => Q (segment :: raw) (segment :: path)
  | .rest _ :: _, Q => ∀ raw path, path ≠ [] → Q raw path

variable {Q : List String → List String → Prop} {parts : List PathPart} {raw : List String}

theorem every_of_matchParts {path : List String} (h : matchParts parts path = some raw)
    (hQ : EveryMatch parts Q) : Q raw path := by
  induction parts generalizing path raw Q with
  | nil =>
    cases path with
    | nil =>
      obtain rfl : [] = raw := by simpa [matchParts] using h
      exact hQ
    | cons segment path => simp [matchParts] at h
  | cons part parts ih =>
    cases part with
    | literal s =>
      cases path with
      | nil => simp [matchParts] at h
      | cons segment path =>
        by_cases hs : s = segment
        · subst hs
          have hrest : matchParts parts path = some raw := by simpa [matchParts] using h
          exact ih (Q := fun raw path => Q raw (s :: path)) hrest hQ
        · simp [matchParts, hs] at h
    | param name =>
      cases path with
      | nil => simp [matchParts] at h
      | cons segment path =>
        by_cases hs : segment = ""
        · simp [matchParts, hs] at h
        · obtain ⟨raw', hrest, rfl⟩ :
              ∃ raw', matchParts parts path = some raw' ∧ segment :: raw' = raw := by
            simpa [matchParts, hs] using h
          exact ih (Q := fun raw path => Q (segment :: raw) (segment :: path)) hrest
            (hQ segment hs)
    | rest name =>
      refine hQ raw path ?_
      rintro rfl
      cases parts <;> simp [matchParts] at h

theorem every_of_matchPath {path : String} (h : matchPath parts path = some raw)
    (hQ : EveryMatch parts fun raw path => Q raw ("" :: path)) : Q raw (segments path) :=
  every_of_matchParts h hQ

end Patterns

end EdgionCenter
