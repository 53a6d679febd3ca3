import EdgionCenter.Admin.Path
import Mathlib.Data.List.TakeWhile

/-! Request targets in origin form: a path of segments and possibly a query. -/
namespace EdgionCenter

/-- The bytes of a segment that stand for themselves. -/
def isSegmentByte (b : UInt8) : Bool :=
  (48 ≤ b && b ≤ 57) || (65 ≤ b && b ≤ 90) || (97 ≤ b && b ≤ 122) ||
    (utf8Bytes "-._~!$&'()*+,;=:@").contains b

/-- The bytes of a query that stand for themselves. -/
def isQueryByte (b : UInt8) : Bool := isSegmentByte b || b == 47 || b == 63

/-- Bytes of a kind and triplets that encode others. -/
def isEncoded (plain : UInt8 → Bool) : List UInt8 → Bool
  | [] => true
  | [b] => plain b
  | [b, c] => plain b && plain c
  | b :: high :: low :: rest =>
    if b = 37 then (hexDigit high).isSome && (hexDigit low).isSome && isEncoded plain rest
    else plain b && isEncoded plain (high :: low :: rest)

structure RequestTarget where
  path : List (List UInt8)
  query : Option (List UInt8)
  deriving DecidableEq

/-- The decoded segments of an absolute path. -/
def parsePath (path : List UInt8) : Option (List (List UInt8)) :=
  match path.splitOn 47 with
  | [] :: first :: rest =>
    if (first :: rest).all (isEncoded isSegmentByte) then some ((first :: rest).map percentDecode)
    else none
  | _ => none

def parseTarget (target : List UInt8) : Option RequestTarget :=
  match target.dropWhile (· ≠ 63) with
  | [] => (⟨·, none⟩) <$> parsePath (target.takeWhile (· ≠ 63))
  | _ :: query =>
    if isEncoded isQueryByte query then
      (⟨·, some query⟩) <$> parsePath (target.takeWhile (· ≠ 63))
    else none

/-! ### Decoding -/

section Decoding

variable {bytes xs ys : List UInt8} {b : UInt8}

theorem percentDecode_cons (h : b ≠ 37) :
    percentDecode (b :: bytes) = b :: percentDecode bytes := by
  rcases bytes with _ | ⟨c, _ | ⟨d, rest⟩⟩
  · rfl
  · rfl
  · rw [percentDecode, if_neg h]

theorem percentDecode_triplet {high low h l : UInt8} (hhigh : hexDigit high = some h)
    (hlow : hexDigit low = some l) :
    percentDecode (37 :: high :: low :: bytes) = (h * 16 + l) :: percentDecode bytes := by
  rw [percentDecode, if_pos rfl, hhigh, hlow]

variable {plain : UInt8 → Bool}

theorem isEncoded_cons (h : b ≠ 37) :
    isEncoded plain (b :: bytes) = (plain b && isEncoded plain bytes) := by
  rcases bytes with _ | ⟨c, _ | ⟨d, rest⟩⟩
  · simp [isEncoded]
  · simp [isEncoded]
  · rw [isEncoded, if_neg h]

/-- A well-formed text is empty, or starts with a plain byte or a triplet. -/
theorem isEncoded_cases (hplain : plain 37 = false) (h : isEncoded plain bytes = true) :
    bytes = [] ∨
    (∃ b rest, bytes = b :: rest ∧ b ≠ 37 ∧ plain b = true ∧ isEncoded plain rest = true) ∨
    ∃ high low rest x y, bytes = 37 :: high :: low :: rest ∧ hexDigit high = some x ∧
      hexDigit low = some y ∧ isEncoded plain rest = true := by
  cases bytes with
  | nil => exact .inl rfl
  | cons b rest =>
    refine .inr ?_
    by_cases hb : b = 37
    · subst hb
      rcases rest with _ | ⟨high, _ | ⟨low, rest⟩⟩
      · simp [isEncoded, hplain] at h
      · simp [isEncoded, hplain] at h
      · rw [isEncoded, if_pos rfl, Bool.and_eq_true, Bool.and_eq_true, Option.isSome_iff_exists,
          Option.isSome_iff_exists] at h
        obtain ⟨⟨⟨x, hx⟩, y, hy⟩, hrest⟩ := h
        exact .inr ⟨high, low, rest, x, y, rfl, hx, hy, hrest⟩
    · rw [isEncoded_cons hb, Bool.and_eq_true] at h
      exact .inl ⟨b, rest, rfl, hb, h.1, h.2⟩

/-- Decoding shortens a text unless it is plain. -/
theorem percentDecode_or_shorter (hplain : plain 37 = false) (h : isEncoded plain bytes = true) :
    (percentDecode bytes = bytes ∧ bytes.all plain = true) ∨
      (percentDecode bytes).length < bytes.length := by
  induction hn : bytes.length using Nat.strongRecOn generalizing bytes with
  | _ n ih =>
    rcases isEncoded_cases hplain h with rfl | ⟨b, rest, rfl, hb, hbplain, hrest⟩ |
      ⟨high, low, rest, x, y, rfl, hx, hy, hrest⟩
    · exact .inl ⟨rfl, rfl⟩
    · rw [List.length_cons] at hn
      rw [percentDecode_cons hb]
      rcases ih rest.length (by omega) hrest rfl with ⟨hsame, hall⟩ | hshorter
      · left
        rw [hsame]
        simp [hbplain, hall]
      · right
        rw [List.length_cons]
        omega
    · right
      rw [percentDecode_triplet hx hy]
      simp only [List.length_cons] at hn ⊢
      rcases ih rest.length (by omega) hrest rfl with ⟨hsame, -⟩ | hshorter
      · rw [hsame]
        omega
      · omega

theorem length_percentDecode_le (hplain : plain 37 = false) (h : isEncoded plain bytes = true) :
    (percentDecode bytes).length ≤ bytes.length := by
  rcases percentDecode_or_shorter hplain h with ⟨hsame, -⟩ | hshorter
  · exact Nat.le_of_eq (congrArg List.length hsame)
  · omega

/-- A plain text stands for itself. -/
theorem encoded_of_plain (hplain : plain 37 = false) (h : bytes.all plain = true) :
    isEncoded plain bytes = true ∧ percentDecode bytes = bytes := by
  induction bytes with
  | nil => exact ⟨rfl, rfl⟩
  | cons b rest ih =>
    rw [List.all_cons, Bool.and_eq_true] at h
    have hb : b ≠ 37 := by
      rintro rfl
      rw [hplain] at h
      cases h.1
    obtain ⟨hrest, hsame⟩ := ih h.2
    rw [isEncoded_cons hb, percentDecode_cons hb, h.1, hrest, hsame]
    exact ⟨rfl, rfl⟩

/-- Texts are decoded piece by piece. -/
theorem percentDecode_append (hplain : plain 37 = false) (h : isEncoded plain xs = true)
    (ys : List UInt8) : percentDecode (xs ++ ys) = percentDecode xs ++ percentDecode ys := by
  induction hn : xs.length using Nat.strongRecOn generalizing xs with
  | _ n ih =>
    rcases isEncoded_cases hplain h with rfl | ⟨b, rest, rfl, hb, -, hrest⟩ |
      ⟨high, low, rest, x, y, rfl, hx, hy, hrest⟩
    · rfl
    · rw [List.length_cons] at hn
      rw [List.cons_append, percentDecode_cons hb, percentDecode_cons hb,
        ih rest.length (by omega) hrest rfl]
      rfl
    · simp only [List.length_cons] at hn
      change percentDecode (37 :: high :: low :: (rest ++ ys)) = _
      rw [percentDecode_triplet hx hy, percentDecode_triplet hx hy,
        ih rest.length (by omega) hrest rfl]
      rfl

theorem not_mem_of_encoded (hplain : plain 37 = false) (hb : plain b = false)
    (hhex : hexDigit b = none) (hne : b ≠ 37) (h : isEncoded plain bytes = true) : b ∉ bytes := by
  induction hn : bytes.length using Nat.strongRecOn generalizing bytes with
  | _ n ih =>
    rcases isEncoded_cases hplain h with rfl | ⟨c, rest, rfl, -, hc, hrest⟩ |
      ⟨high, low, rest, x, y, rfl, hx, hy, hrest⟩
    · simp
    · rw [List.length_cons] at hn
      have hbc : b ≠ c := by
        rintro rfl
        rw [hb] at hc
        cases hc
      simp [hbc, ih rest.length (by omega) hrest rfl]
    · simp only [List.length_cons] at hn
      have hhigh : b ≠ high := by
        rintro rfl
        rw [hhex] at hx
        cases hx
      have hlow : b ≠ low := by
        rintro rfl
        rw [hhex] at hy
        cases hy
      simp [hne, hhigh, hlow, ih rest.length (by omega) hrest rfl]

end Decoding

/-! ### Paths -/

section Paths

variable {path : List UInt8} {segs : List (List UInt8)}

theorem segmentByte_percent : isSegmentByte 37 = false := by decide

theorem segmentByte_slash : isSegmentByte 47 = false := by decide

theorem segmentByte_question : isSegmentByte 63 = false := by decide

/-- The bytes that a list of segments takes, with the slashes between them. -/
def width (segs : List (List UInt8)) : Nat := (segs.map List.length).sum + (segs.length - 1)

theorem length_intercalate (hne : segs ≠ []) : ([47].intercalate segs).length = width segs := by
  induction segs with
  | nil => exact absurd rfl hne
  | cons s segs ih =>
    cases segs with
    | nil => simp [width, List.intercalate]
    | cons t segs =>
      rw [List.intercalate_cons_cons]
      simp only [List.length_append, List.length_singleton, ih (by simp)]
      simp only [width, List.map_cons, List.sum_cons, List.length_cons]
      omega

theorem parsePath_eq_some : parsePath path = some segs ↔
    ∃ raw, raw ≠ [] ∧ path.splitOn 47 = [] :: raw ∧
      (∀ s ∈ raw, isEncoded isSegmentByte s = true) ∧ raw.map percentDecode = segs := by
  unfold parsePath
  constructor
  · intro h
    split at h
    · next first rest hsplit =>
      split_ifs at h with hall
      exact ⟨first :: rest, by simp, hsplit, List.all_eq_true.mp hall, Option.some.inj h⟩
    · cases h
  · rintro ⟨raw, hne, hsplit, hall, rfl⟩
    cases raw with
    | nil => exact absurd rfl hne
    | cons first rest =>
      rw [hsplit]
      exact if_pos (List.all_eq_true.mpr hall)

variable {raw : List (List UInt8)}

/-- The segments that decode to given ones take at least as much room, and if they take no more then
they are the given ones. -/
theorem width_le (h : ∀ s ∈ raw, isEncoded isSegmentByte s = true) :
    ((raw.map percentDecode).map List.length).sum ≤ (raw.map List.length).sum ∧
      ((raw.map List.length).sum ≤ ((raw.map percentDecode).map List.length).sum →
        raw.map percentDecode = raw ∧ ∀ s ∈ raw, s.all isSegmentByte = true) := by
  induction raw with
  | nil => simp
  | cons s raw ih =>
    obtain ⟨hle, heq⟩ := ih fun t ht => h t (List.mem_cons_of_mem _ ht)
    have hs := h s List.mem_cons_self
    have hsle := length_percentDecode_le segmentByte_percent hs
    simp only [List.map_cons, List.sum_cons]
    refine ⟨by omega, ?_⟩
    intro hge
    obtain ⟨hsame, hall⟩ := heq (by omega)
    rcases percentDecode_or_shorter segmentByte_percent hs with ⟨hself, hplain⟩ | hshorter
    · rw [hsame, hself]
      exact ⟨rfl, List.forall_mem_cons.mpr ⟨hplain, hall⟩⟩
    · omega

theorem join_of_splitOn (hne : raw ≠ []) (h : path.splitOn 47 = [] :: raw) :
    path = 47 :: [47].intercalate raw := by
  have hjoin : [47].intercalate (path.splitOn 47) = path := List.intercalate_splitOn 47
  rw [h, List.intercalate_cons_of_ne_nil hne] at hjoin
  exact hjoin.symm

/-- A path holds no question mark. -/
theorem question_not_mem_of_parsePath (h : parsePath path = some segs) : 63 ∉ path := by
  obtain ⟨raw, hne, hsplit, hall, -⟩ := parsePath_eq_some.mp h
  have hraw : ∀ s ∈ raw, 63 ∉ s := fun s hs =>
    not_mem_of_encoded segmentByte_percent segmentByte_question (by decide) (by decide) (hall s hs)
  have hjoin : ∀ segs : List (List UInt8), (∀ s ∈ segs, 63 ∉ s) → 63 ∉ [47].intercalate segs := by
    intro segs hsegs
    induction segs with
    | nil => simp [List.intercalate]
    | cons s segs ih =>
      have hs := hsegs s List.mem_cons_self
      have hrest := ih fun t ht => hsegs t (List.mem_cons_of_mem _ ht)
      cases segs with
      | nil => simpa [List.intercalate] using hs
      | cons t segs =>
        rw [List.intercalate_cons_cons]
        simp only [List.mem_append, List.mem_singleton, not_or]
        exact ⟨⟨hs, by decide⟩, hrest⟩
  rw [join_of_splitOn hne hsplit, List.mem_cons, not_or]
  exact ⟨by decide, hjoin raw hraw⟩

/-- A path has room for its decoded segments, with equality only if they stand in it as they are. -/
theorem length_of_parsePath (h : parsePath path = some segs) : width segs < path.length ∧
      (path.length ≤ width segs + 1 → ∀ s ∈ segs, s.all isSegmentByte = true) := by
  obtain ⟨raw, hne, hsplit, hall, rfl⟩ := parsePath_eq_some.mp h
  have hlength : path.length = width raw + 1 := by
    rw [join_of_splitOn hne hsplit, List.length_cons, length_intercalate hne]
  obtain ⟨hle, heq⟩ := width_le hall
  rw [hlength]
  unfold width
  rw [List.length_map]
  refine ⟨by omega, ?_⟩
  intro hroom
  obtain ⟨hsame, hplain⟩ := heq (by omega)
  rw [hsame]
  exact hplain

/-- A path that is put together from texts is taken apart into them only if they are plain. -/
theorem parsePath_join (hne : segs ≠ []) : parsePath (47 :: [47].intercalate segs) = some segs ↔
    ∀ s ∈ segs, s.all isSegmentByte = true := by
  constructor
  · intro h
    apply (length_of_parsePath h).2
    rw [List.length_cons, length_intercalate hne]
  · intro h
    refine parsePath_eq_some.mpr ⟨segs, hne, ?_, ?_, ?_⟩
    · have hjoin : 47 :: [47].intercalate segs = [47].intercalate ([] :: segs) := by
        rw [List.intercalate_cons_of_ne_nil hne]
        rfl
      rw [hjoin]
      refine List.splitOn_intercalate 47 ?_ (by simp)
      intro s hs hslash
      rcases List.mem_cons.mp hs with rfl | hs
      · cases hslash
      · have hplain := List.all_eq_true.mp (h s hs) 47 hslash
        rw [segmentByte_slash] at hplain
        cases hplain
    · intro s hs
      exact (encoded_of_plain segmentByte_percent (h s hs)).1
    · refine (List.map_congr_left fun s hs => ?_).trans (List.map_id segs)
      exact (encoded_of_plain segmentByte_percent (h s hs)).2

end Paths

/-! ### Targets -/

section Targets

variable {path : List UInt8} {segs : List (List UInt8)} {query : Option (List UInt8)}

/-- A query as it stands in a target. -/
def querySuffix : Option (List UInt8) → List UInt8
  | none => []
  | some query => 63 :: query

/-- Nothing before a query may be taken for its start. -/
theorem parseTarget_append (hquery : ∀ q, query = some q → isEncoded isQueryByte q = true) :
    parseTarget (path ++ querySuffix query) = some ⟨segs, query⟩ ↔ parsePath path = some segs := by
  by_cases hmark : 63 ∈ path
  · -- the first question mark starts a query that is longer than the given one
    have hdrop : path.dropWhile (· ≠ 63) ≠ [] := by
      rw [ne_eq, List.dropWhile_eq_nil_iff]
      intro hall
      simpa using hall 63 hmark
    obtain ⟨mark, back, hback⟩ := List.exists_cons_of_ne_nil hdrop
    have hrest : (path ++ querySuffix query).dropWhile (· ≠ 63) =
        mark :: (back ++ querySuffix query) := by
      rw [List.dropWhile_append, hback]
      rfl
    have hlonger : query ≠ some (back ++ querySuffix query) := by
      rintro hq
      cases query with
      | none => cases hq
      | some q =>
        have hlength := congrArg List.length (Option.some.inj hq)
        rw [querySuffix, List.length_append, List.length_cons] at hlength
        omega
    refine ⟨fun h => absurd h ?_, fun h => absurd hmark (question_not_mem_of_parsePath h)⟩
    unfold parseTarget
    rw [hrest]
    dsimp only
    split_ifs with hvalid
    · intro h
      obtain ⟨_, -, htarget⟩ := Option.map_eq_some_iff.mp h
      exact hlonger (RequestTarget.mk.inj htarget).2.symm
    · intro h
      cases h
  · have hbytes : ∀ b ∈ path, decide (b ≠ 63) = true := by
      intro b hb
      simp only [ne_eq, decide_eq_true_eq]
      rintro rfl
      exact hmark hb
    have htake : (path ++ querySuffix query).takeWhile (· ≠ 63) = path := by
      rw [List.takeWhile_append_of_pos hbytes]
      cases query <;> simp [querySuffix]
    have hdrop : (path ++ querySuffix query).dropWhile (· ≠ 63) = querySuffix query := by
      rw [List.dropWhile_append_of_pos hbytes]
      cases query <;> simp [querySuffix]
    have hparse : parseTarget (path ++ querySuffix query) =
        (parsePath path).map fun segs => ⟨segs, query⟩ := by
      unfold parseTarget
      rw [hdrop, htake]
      cases query with
      | none => rfl
      | some q => exact if_pos (hquery q rfl)
    rw [hparse, Option.map_eq_some_iff]
    constructor
    · rintro ⟨_, hpath, htarget⟩
      obtain ⟨rfl, -⟩ := RequestTarget.mk.inj htarget
      exact hpath
    · intro hpath
      exact ⟨segs, hpath, rfl⟩

end Targets

end EdgionCenter
