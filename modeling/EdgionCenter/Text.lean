import EdgionCenter.Json
import Mathlib.Algebra.BigOperators.Group.List.Basic
import Mathlib.Algebra.GroupWithZero.Nat

/-! `str` and `char` functions of the standard library, on the characters of a string. -/
namespace EdgionCenter

/-- `char::is_control`. -/
def isControl (c : Char) : Bool := c.toNat < 0x20 || (0x7F ≤ c.toNat && c.toNat < 0xA0)

/-- A character in the `{:?}` of a string. Of the characters that are not printed, only the controls
are known here. -/
def debugChar (c : Char) : List Char :=
  if c = '"' ∨ c = '\\' then ['\\', c]
  else if c = '\t' then ['\\', 't']
  else if c = '\r' then ['\\', 'r']
  else if c = '\n' then ['\\', 'n']
  else if c.toNat = 0 then ['\\', '0']
  else if isControl c then ['\\', 'u', '\x7b'] ++ Nat.toDigits 16 c.toNat ++ ['\x7d']
  else [c]

/-- A string as `{:?}` writes it. -/
def debugStr (s : String) : String := String.ofList ('"' :: s.toList.flatMap debugChar ++ ['"'])

/-- `to_ascii_lowercase`. -/
def asciiLower (s : String) : String := String.ofList (s.toList.map Char.toLower)

/-- `str::eq_ignore_ascii_case`. -/
def eqIgnoreAsciiCase (a b : String) : Bool := asciiLower a == asciiLower b

/-- `str::to_ascii_uppercase`. -/
def asciiUpper (s : String) : String := String.ofList (s.toList.map Char.toUpper)

/-- `str::len`: bytes, not characters. -/
def utf8Len (cs : List Char) : Nat := (cs.map Char.utf8Size).sum

/-- The bytes of a text. -/
def utf8 (cs : List Char) : List UInt8 := cs.flatMap String.utf8EncodeChar

theorem length_utf8 (cs : List Char) : (utf8 cs).length = utf8Len cs := by
  rw [utf8, List.length_flatMap, utf8Len]
  simp only [String.length_utf8EncodeChar]

theorem utf8_injective : Function.Injective utf8 := by
  intro cs ds h
  have hbytes : (String.ofList cs).toByteArray = (String.ofList ds).toByteArray := by
    rw [String.toByteArray_ofList, String.toByteArray_ofList]
    exact congrArg List.toByteArray h
  exact String.ofList_injective (String.toByteArray_inj.mp hbytes)

/-- `str::split_once`. -/
def splitOnce (c : Char) (s : String) : Option (String × String) :=
  if c ∈ s.toList then
    some (String.ofList (s.toList.takeWhile (· ≠ c)),
      String.ofList ((s.toList.dropWhile (· ≠ c)).drop 1))
  else none

theorem splitOnce_eq_some {c : Char} {s before after : String} :
    splitOnce c s = some (before, after) ↔
      s.toList = before.toList ++ c :: after.toList ∧ c ∉ before.toList := by
  have hsplit : ∀ {l r : List Char}, s.toList = l ++ c :: r → c ∉ l →
      splitOnce c s = some (String.ofList l, String.ofList r) := by
    intro l r hs hl
    have hne : ∀ d ∈ l, decide (d ≠ c) = true := by
      intro d hd
      exact decide_eq_true fun he => hl (he ▸ hd)
    rw [splitOnce, if_pos (by simp [hs]), hs, List.takeWhile_append_of_pos hne,
      List.dropWhile_append_of_pos hne]
    simp
  constructor
  · intro h
    by_cases hc : c ∈ s.toList
    · obtain ⟨l, r, hs, hl⟩ := List.eq_append_cons_of_mem hc
      rw [hsplit hs hl] at h
      obtain ⟨rfl, rfl⟩ := Prod.mk.inj (Option.some.inj h)
      rw [String.toList_ofList, String.toList_ofList]
      exact ⟨hs, hl⟩
    · rw [splitOnce, if_neg hc] at h
      cases h
  · rintro ⟨hs, hc⟩
    rw [hsplit hs hc, String.ofList_toList, String.ofList_toList]

/-- `str::starts_with`. -/
def startsWith (s start : String) : Bool := start.toList.isPrefixOf s.toList

/-- `str::ends_with`. -/
def endsWith (s ending : String) : Bool := ending.toList.isSuffixOf s.toList

/-- `str::parse::<u64>`: an optional plus sign, then digits, within range. -/
def parseU64 (s : String) : Option Nat :=
  let digits := match s.toList with
    | '+' :: rest => rest
    | chars => chars
  if digits ≠ [] ∧ digits.all Char.isDigit then
    let n := Nat.ofDigitChars 10 digits 0
    if n < 2 ^ 64 then some n else none
  else none

section Lower

variable {c : Char}

theorem toNat_toLower :
    c.toLower.toNat = if 65 ≤ c.toNat ∧ c.toNat ≤ 90 then c.toNat + 32 else c.toNat := by
  unfold Char.toLower
  by_cases h : c.val ≥ 'A'.val ∧ c.val ≤ 'Z'.val
  · have hn : 65 ≤ c.toNat ∧ c.toNat ≤ 90 := by
      simpa [UInt32.le_iff_toNat_le, ← Char.toNat_val] using h
    rw [dif_pos h, if_pos hn]
    change (c.val + 32).toNat = c.toNat + 32
    have hv : c.val.toNat = c.toNat := rfl
    rw [UInt32.toNat_add, hv]
    change (c.toNat + 32) % 4294967296 = c.toNat + 32
    omega
  · have hn : ¬ (65 ≤ c.toNat ∧ c.toNat ≤ 90) := by
      simpa [UInt32.le_iff_toNat_le, ← Char.toNat_val] using h
    rw [dif_neg h, if_neg hn]

theorem toLower_eq_self (h : ¬ (65 ≤ c.toNat ∧ c.toNat ≤ 90)) : c.toLower = c := by
  apply Char.toNat_inj.mp
  rw [toNat_toLower, if_neg h]

theorem toLower_toLower : c.toLower.toLower = c.toLower := by
  apply toLower_eq_self
  rw [toNat_toLower]
  split <;> omega

theorem toLower_eq_iff {c d : Char} (hd : ¬ (65 ≤ d.toNat ∧ d.toNat ≤ 90))
    (hd' : ¬ (97 ≤ d.toNat ∧ d.toNat ≤ 122)) : c.toLower = d ↔ c = d := by
  rw [← Char.toNat_inj, ← Char.toNat_inj, toNat_toLower]
  split <;> omega

theorem isAlphanum_iff : c.isAlphanum = true ↔
    (65 ≤ c.toNat ∧ c.toNat ≤ 90) ∨ (97 ≤ c.toNat ∧ c.toNat ≤ 122) ∨
      (48 ≤ c.toNat ∧ c.toNat ≤ 57) := by
  change ((decide (c.val ≥ 'A'.val ∧ c.val ≤ 'Z'.val) ||
    (decide (c.val ≥ 'a'.val) && decide (c.val ≤ 'z'.val))) ||
    (decide (c.val ≥ '0'.val) && decide (c.val ≤ '9'.val))) = true ↔ _
  simp [UInt32.le_iff_toNat_le, ← Char.toNat_val, or_assoc]

theorem isAlphanum_toLower : c.toLower.isAlphanum = c.isAlphanum := by
  rw [Bool.eq_iff_iff, isAlphanum_iff, isAlphanum_iff, toNat_toLower]
  split <;> omega

theorem utf8Size_of_ascii (h : c.toNat < 128) : c.utf8Size = 1 := by
  have hv : c.val ≤ 127 := by
    rw [UInt32.le_iff_toNat_le]
    exact Nat.le_of_lt_succ h
  unfold Char.utf8Size
  exact if_pos hv

theorem utf8Len_append (cs ds : List Char) : utf8Len (cs ++ ds) = utf8Len cs + utf8Len ds := by
  simp [utf8Len]

theorem utf8Len_cons (c : Char) (cs : List Char) : utf8Len (c :: cs) = c.utf8Size + utf8Len cs := by
  simp [utf8Len]

theorem utf8Len_of_ascii {cs : List Char} (h : ∀ c ∈ cs, c.toNat < 128) :
    utf8Len cs = cs.length := by
  induction cs with
  | nil => rfl
  | cons c cs ih =>
    have hc : c.utf8Size = 1 := utf8Size_of_ascii (h c List.mem_cons_self)
    have hcs := ih fun d hd => h d (List.mem_cons_of_mem _ hd)
    rw [utf8Len_cons, hc, hcs, List.length_cons, Nat.add_comm]

theorem utf8Size_toLower : c.toLower.utf8Size = c.utf8Size := by
  by_cases h : 65 ≤ c.toNat ∧ c.toNat ≤ 90
  · rw [utf8Size_of_ascii, utf8Size_of_ascii]
    · omega
    · rw [toNat_toLower]
      split <;> omega
  · rw [toLower_eq_self h]

theorem utf8Len_map_toLower (cs : List Char) : utf8Len (cs.map Char.toLower) = utf8Len cs := by
  simp [utf8Len, Function.comp_def, utf8Size_toLower]

theorem map_toLower_toLower (cs : List Char) :
    (cs.map Char.toLower).map Char.toLower = cs.map Char.toLower := by
  simp [toLower_toLower]

theorem asciiLower_asciiLower (s : String) : asciiLower (asciiLower s) = asciiLower s := by
  simp only [asciiLower, String.toList_ofList, map_toLower_toLower]

end Lower

section Octets

/-- `str::as_bytes`. -/
def utf8Bytes (s : String) : List UInt8 := utf8 s.toList

theorem utf8Bytes_append (s t : String) : utf8Bytes (s ++ t) = utf8Bytes s ++ utf8Bytes t := by
  simp [utf8Bytes, utf8]

theorem utf8Bytes_injective : Function.Injective utf8Bytes :=
  fun _ _ h => String.toList_injective (utf8_injective h)

/-- `str::from_utf8`. -/
def fromUtf8 (bytes : List UInt8) : Option String := String.fromUTF8? bytes.toByteArray

theorem utf8Bytes_of_fromUtf8 {bytes : List UInt8} {s : String} (h : fromUtf8 bytes = some s) :
    utf8Bytes s = bytes := by
  unfold fromUtf8 String.fromUTF8? at h
  split at h
  · cases h
    have he := String.utf8Encode_toList (b := String.fromUTF8 bytes.toByteArray (by assumption))
    have hdata := congrArg (fun b => b.data.toList) he
    simpa [List.utf8Encode, List.data_toByteArray, String.fromUTF8, utf8Bytes, utf8] using hdata
  · cases h

/-- `u8::is_ascii_whitespace`. -/
def isAsciiSpace (b : UInt8) : Bool := b == 9 || b == 10 || b == 12 || b == 13 || b == 32

/-- `u8::is_ascii_control`. -/
def isAsciiControl (b : UInt8) : Bool := b < 32 || b == 127

/-- `u8::is_ascii_digit`. -/
def isAsciiDigit (b : UInt8) : Bool := 48 ≤ b && b ≤ 57

theorem toByteArray_utf8Bytes (s : String) : (utf8Bytes s).toByteArray = s.toByteArray := by
  rw [← String.utf8Encode_toList]
  rfl

theorem fromUtf8_utf8Bytes (s : String) : fromUtf8 (utf8Bytes s) = some s := by
  unfold fromUtf8 String.fromUTF8?
  rw [toByteArray_utf8Bytes, dif_pos s.isValidUTF8]
  rfl

theorem toNat_charOfNat {n : Nat} (h : n < 256) : (Char.ofNat n).toNat = n := by
  have hvalid : n.isValidChar := .inl (by omega)
  unfold Char.ofNat
  rw [dif_pos hvalid]
  change (UInt32.ofNatLT n _).toNat = n
  rw [UInt32.toNat_ofNatLT]

/-- The byte of an ASCII character is its code. -/
theorem utf8EncodeChar_of_ascii {c : Char} (h : c.toNat < 128) :
    String.utf8EncodeChar c = [UInt8.ofNat c.toNat] := by
  have hval : c.val.toNat = c.toNat := rfl
  simp only [String.utf8EncodeChar, hval]
  rw [if_pos (by omega)]

end Octets

end EdgionCenter
