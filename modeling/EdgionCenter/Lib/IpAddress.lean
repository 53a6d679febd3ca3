import Mathlib.Data.List.TakeWhile
import Mathlib.Data.Nat.Digits.Defs

/-! The texts of IP addresses as the standard library of Rust writes and reads them. A reader takes a
text and returns what it has read together with the rest. -/
namespace IpAddress

/-! ### Numbers -/

/-- `char::to_digit`. -/
def toDigit (radix : Nat) (c : Char) : Option Nat :=
  (List.range radix).find? fun d => c.toLower = d.digitChar

def value (radix : Nat) (digits : List Char) : Nat :=
  digits.foldl (fun n c => radix * n + (toDigit radix c).getD 0) 0

/-- `read_number`: all digits that follow, of which there may not be too many. -/
def readNumber (radix maxDigits bound : Nat) (zeroStart : Bool) (cs : List Char) :
    Option (Nat × List Char) :=
  let digits := cs.takeWhile fun c => (toDigit radix c).isSome
  if digits ≠ [] ∧ digits.length ≤ maxDigits ∧
      (zeroStart = true ∨ digits.head? ≠ some '0' ∨ digits.length = 1) ∧ value radix digits < bound then
    some (value radix digits, cs.drop digits.length)
  else none

/-- The radix has a digit for every number below it. -/
abbrev Readable (radix : Nat) : Prop := ∀ d < radix, toDigit radix d.digitChar = some d

theorem readable_ten : Readable 10 := by decide

theorem readable_sixteen : Readable 16 := by decide

/-- The text goes on with something that is not a digit. -/
def Ends (radix : Nat) (rest : List Char) : Prop := ∀ c ∈ rest.head?, toDigit radix c = none

variable {radix k : Nat} {rest : List Char} {α : Type} {octets : List Nat}

theorem Ends.cons {c : Char} (h : toDigit radix c = none) (rest : List Char) :
    Ends radix (c :: rest) := by
  rintro _ ⟨⟩
  exact h

theorem Ends.takeWhile (h : Ends radix rest) :
    rest.takeWhile (fun c => (toDigit radix c).isSome) = [] := by
  cases rest with
  | nil => rfl
  | cons c rest => rw [List.takeWhile_cons, h c rfl]; rfl

theorem Ends.readNumber (h : Ends radix rest) (maxDigits bound : Nat) (zeroStart : Bool) :
    readNumber radix maxDigits bound zeroStart rest = none := by
  simp [IpAddress.readNumber, h.takeWhile]

section Numbers

variable {radix n : Nat}

theorem isSome_of_mem_toDigits (h1 : 1 < radix) (h : Readable radix) {c : Char}
    (hc : c ∈ radix.toDigits n) : (toDigit radix c).isSome = true := by
  induction n using Nat.strong_induction_on with
  | _ n ih =>
    rw [Nat.toDigits_eq_if h1] at hc
    split at hc
    · rw [List.mem_singleton.mp hc, h n (by assumption)]
      rfl
    · rcases List.mem_append.mp hc with hc | hc
      · exact ih _ (Nat.div_lt_self (by omega) h1) hc
      · rw [List.mem_singleton.mp hc, h _ (Nat.mod_lt _ (by omega))]
        rfl

theorem value_toDigits (h1 : 1 < radix) (h : Readable radix) (n : Nat) :
    value radix (radix.toDigits n) = n := by
  induction n using Nat.strong_induction_on with
  | _ n ih =>
    rw [Nat.toDigits_eq_if h1]
    split
    · simp [value, h n (by assumption)]
    · have hfront := ih (n / radix) (Nat.div_lt_self (by omega) h1)
      rw [value, List.foldl_append, ← value, hfront]
      simp [h _ (Nat.mod_lt n (by omega)), Nat.div_add_mod]

theorem head?_toDigits (h1 : 1 < radix) (hn : n ≠ 0) : (radix.toDigits n).head? ≠ some '0' := by
  induction n using Nat.strong_induction_on with
  | _ n ih =>
    rw [Nat.toDigits_eq_if h1]
    split
    · simpa [Nat.digitChar_eq_zero] using hn
    · have hdiv : n / radix ≠ 0 := Nat.div_ne_zero_iff.mpr ⟨by omega, by omega⟩
      rw [List.head?_append, Option.or_of_isSome (by simp [Nat.toDigits_ne_nil])]
      exact ih _ (Nat.div_lt_self (by omega) h1) hdiv

/-- A number is read back. -/
theorem readNumber_toDigits {maxDigits bound : Nat} (zeroStart : Bool) {rest : List Char}
    (h1 : 1 < radix) (h : Readable radix) (hmax : 0 < maxDigits) (hlt : n < radix ^ maxDigits)
    (hn : n < bound) (hrest : Ends radix rest) :
    readNumber radix maxDigits bound zeroStart (radix.toDigits n ++ rest) = some (n, rest) := by
  have hall : ∀ c ∈ radix.toDigits n, (toDigit radix c).isSome = true :=
    fun c hc => isSome_of_mem_toDigits h1 h hc
  have hdigits : (radix.toDigits n ++ rest).takeWhile (fun c => (toDigit radix c).isSome) =
      radix.toDigits n := by
    rw [List.takeWhile_append_of_pos hall, hrest.takeWhile, List.append_nil]
  have hzero : (radix.toDigits n).head? ≠ some '0' ∨ (radix.toDigits n).length = 1 := by
    by_cases h0 : n = 0
    · exact .inr (by rw [h0, Nat.toDigits_zero]; rfl)
    · exact .inl (head?_toDigits h1 h0)
  have hlength := (Nat.length_toDigits_le_iff h1 hmax).mpr hlt
  simp only [readNumber, hdigits, value_toDigits h1 h]
  rw [if_pos ⟨Nat.toDigits_ne_nil, hlength, .inr hzero, hn⟩, List.drop_left]

end Numbers

/-! ### Parts -/

/-- The parts of a number, the highest first. -/
def parts (base : Nat) : Nat → Nat → List Nat
  | 0, _ => []
  | k + 1, n => n / base ^ k % base :: parts base k n

def ofParts (base : Nat) (ps : List Nat) : Nat := ps.foldl (fun n p => base * n + p) 0

theorem length_parts (base k n : Nat) : (parts base k n).length = k := by
  induction k with
  | zero => rfl
  | succ k ih => rw [parts, List.length_cons, ih]

theorem lt_of_mem_parts {base n p : Nat} (hb : 0 < base) (h : p ∈ parts base k n) : p < base := by
  induction k with
  | zero => cases h
  | succ k ih =>
    rcases List.mem_cons.mp h with rfl | h
    · exact Nat.mod_lt _ hb
    · exact ih h

theorem ofParts_parts (base k n : Nat) : ofParts base (parts base k n) = n % base ^ k := by
  have hfold : ∀ init, (parts base k n).foldl (fun n p => base * n + p) init =
      base ^ k * init + n % base ^ k := by
    induction k with
    | zero => simp [parts, Nat.mod_one]
    | succ k ih =>
      intro init
      rw [parts, List.foldl_cons, ih, Nat.mod_pow_succ, Nat.pow_succ]
      ring
  rw [ofParts, hfold, Nat.mul_zero, Nat.zero_add]

/-- Texts with a separator between them, which also stands before the first one unless it is at the
start. -/
def join (separator : Char) : Bool → List (List Char) → List Char
  | _, [] => []
  | start, t :: ts => (if start then t else separator :: t) ++ join separator false ts

/-- `read_separator`. -/
def afterSeparator {α : Type} (separator : Char) (start : Bool)
    (read : List Char → Option (α × List Char)) : List Char → Option (α × List Char)
  | [] => if start then read [] else none
  | c :: cs => if start then read (c :: cs) else if c = separator then read cs else none

theorem afterSeparator_start (separator : Char) (read : List Char → Option (α × List Char))
    (cs : List Char) : afterSeparator separator true read cs = read cs := by
  cases cs <;> rfl

theorem afterSeparator_cons (separator : Char) (start : Bool)
    (read : List Char → Option (α × List Char)) (t rest : List Char) :
    afterSeparator separator start read ((if start then t else separator :: t) ++ rest) =
      read (t ++ rest) := by
  cases start
  · simp [afterSeparator]
  · rw [if_pos rfl, afterSeparator_start]

/-! ### IPv4 -/

def showOctets (octets : List Nat) : List Char := join '.' true (octets.map (Nat.toDigits 10))

def readOctets : Nat → Bool → List Char → Option (List Nat × List Char)
  | 0, _, cs => some ([], cs)
  | k + 1, start, cs => do
    let (octet, rest) ← afterSeparator '.' start (readNumber 10 3 256 false) cs
    let (octets, rest) ← readOctets k false rest
    return (octet :: octets, rest)

/-- `Display` of `Ipv4Addr`. -/
def showV4 (a : BitVec 32) : List Char := showOctets (parts 256 4 a.toNat)

/-- `FromStr` of `Ipv4Addr`. -/
def parseV4 (cs : List Char) : Option (BitVec 32) :=
  match readOctets 4 true cs with
  | some (octets, []) => some (BitVec.ofNat 32 (ofParts 256 octets))
  | _ => none

theorem readOctets_join (start : Bool) (h : ∀ o ∈ octets, o < 256) (hrest : Ends 10 rest) :
    readOctets octets.length start (join '.' start (octets.map (Nat.toDigits 10)) ++ rest) =
      some (octets, rest) := by
  induction octets generalizing start with
  | nil => rfl
  | cons o os ih =>
    have hends : Ends 10 (join '.' false (os.map (Nat.toDigits 10)) ++ rest) := by
      cases os with
      | nil => exact hrest
      | cons o' os =>
        exact Ends.cons (by decide) _
    have ho : o < 256 := h o (by simp)
    have hos : ∀ o ∈ os, o < 256 := fun o ho => h o (by simp [ho])
    rw [List.map_cons, join, List.length_cons, readOctets, List.append_assoc, afterSeparator_cons,
      readNumber_toDigits false (by decide) readable_ten (by decide) (by omega) ho hends]
    simp [ih false hos]

theorem parseV4_showV4 (a : BitVec 32) : parseV4 (showV4 a) = some a := by
  have hread := readOctets_join true
    (fun o (ho : o ∈ parts 256 4 a.toNat) => lt_of_mem_parts (by decide) ho)
    (by simp [Ends] : Ends 10 [])
  rw [length_parts, List.append_nil] at hread
  rw [parseV4, showV4, showOctets, hread]
  simp [ofParts_parts, Nat.mod_eq_of_lt a.isLt]

/-- An IPv4 address has a dot in it. -/
theorem dot_mem_of_readOctets {start : Bool} {cs : List Char}
    (h : readOctets (k + 2) start cs = some (octets, rest)) : '.' ∈ cs := by
  have hmore : ∀ {cs : List Char} {octets rest}, readOctets (k + 1) false cs = some (octets, rest) →
      '.' ∈ cs := by
    intro cs octets rest h
    cases cs with
    | nil => simp [readOctets, afterSeparator] at h
    | cons c cs =>
      by_cases hc : c = '.'
      · simp [hc]
      · simp [readOctets, afterSeparator, hc] at h
  have hrest : ∀ {cs : List Char} {n rest}, readNumber 10 3 256 false cs = some (n, rest) →
      '.' ∈ rest → '.' ∈ cs := by
    intro cs n rest h hdot
    simp only [readNumber] at h
    split at h
    · obtain ⟨-, rfl⟩ := Prod.mk.inj (Option.some.inj h)
      exact List.mem_of_mem_drop hdot
    · cases h
  rw [readOctets] at h
  simp only [Option.bind_eq_bind, Option.bind_eq_some_iff] at h
  obtain ⟨⟨octet, rest'⟩, hread, ⟨octets', rest''⟩, hoctets, -⟩ := h
  have hdot := hmore hoctets
  cases cs with
  | nil =>
    cases start
    · simp [afterSeparator] at hread
    · exact hrest hread hdot
  | cons c cs =>
    cases start
    · simp only [afterSeparator, Bool.false_eq_true, if_false] at hread
      split at hread
      · exact List.mem_cons_of_mem _ (hrest hread hdot)
      · cases hread
    · exact hrest hread hdot

/-! ### IPv6 -/

/-- The longest run of zeros, the first of them, as its start and its length; `i` is the number of
groups that were looked at. -/
def longestZeros : Nat → Nat × Nat → Nat × Nat → List Nat → Nat × Nat
  | _, _, longest, [] => longest
  | i, current, longest, g :: gs =>
    if g = 0 then
      let current := (if current.2 = 0 then i else current.1, current.2 + 1)
      longestZeros (i + 1) current (if longest.2 < current.2 then current else longest) gs
    else longestZeros (i + 1) (0, 0) longest gs

def showGroups (groups : List Nat) : List Char := join ':' true (groups.map (Nat.toDigits 16))

/-- The longest run of zeros is left out, unless it is a single one. -/
def showCompressed (groups : List Nat) : List Char :=
  let zeros := longestZeros 0 (0, 0) (0, 0) groups
  if 1 < zeros.2 then
    showGroups (groups.take zeros.1) ++ "::".toList ++ showGroups (groups.drop (zeros.1 + zeros.2))
  else showGroups groups

/-- `Display` of `Ipv6Addr`. -/
def showV6 (a : BitVec 128) : List Char :=
  match parts 65536 8 a.toNat with
  | [0, 0, 0, 0, 0, 65535, x, y] =>
    "::ffff:".toList ++ showOctets [x / 256, x % 256, y / 256, y % 256]
  | groups => showCompressed groups

/-- `read_groups`: at most so many groups, and whether the last two are an IPv4 address. -/
def readGroups : Nat → Bool → List Char → List Nat × Bool × List Char
  | 0, _, cs => ([], false, cs)
  | k + 1, start, cs =>
    match if 0 < k then afterSeparator ':' start (readOctets 4 true) cs else none with
    | some (octets, rest) =>
      ([ofParts 256 (octets.take 2), ofParts 256 (octets.drop 2)], true, rest)
    | none =>
      match afterSeparator ':' start (readNumber 16 4 65536 true) cs with
      | some (group, rest) =>
        let (groups, v4, rest) := readGroups k false rest
        (group :: groups, v4, rest)
      | none => ([], false, cs)

/-- `read_ipv6_addr`. -/
def readV6 (cs : List Char) : Option (List Nat × List Char) :=
  let (head, v4, rest) := readGroups 8 true cs
  if head.length = 8 then some (head, rest)
  else if v4 then none
  else match rest with
    | ':' :: ':' :: rest =>
      let (tail, _, rest) := readGroups (7 - head.length) true rest
      some (head ++ List.replicate (8 - head.length - tail.length) 0 ++ tail, rest)
    | _ => none

/-- `FromStr` of `Ipv6Addr`. -/
def parseV6 (cs : List Char) : Option (BitVec 128) :=
  match readV6 cs with
  | some (groups, []) => some (BitVec.ofNat 128 (ofParts 65536 groups))
  | _ => none

section Zeros

/-- A run of zeros within the groups. -/
def IsZeros (groups : List Nat) (span : Nat × Nat) : Prop :=
  span.1 + span.2 ≤ groups.length ∧
    ∀ i, span.1 ≤ i → i < span.1 + span.2 → groups[i]? = some 0

variable {groups : List Nat}

theorem IsZeros.append {span : Nat × Nat} (h : IsZeros groups span) (more : List Nat) :
    IsZeros (groups ++ more) span := by
  refine ⟨by simp only [List.length_append]; exact Nat.le_add_right_of_le h.1, ?_⟩
  intro i hlow hhigh
  rw [List.getElem?_append_left (Nat.lt_of_lt_of_le hhigh h.1)]
  exact h.2 i hlow hhigh

theorem isZeros_longestZeros {before : List Nat} {current longest : Nat × Nat}
    (hcurrent : IsZeros before current)
    (hend : current.2 = 0 ∨ current.1 + current.2 = before.length)
    (hlongest : IsZeros before longest) :
    IsZeros (before ++ groups) (longestZeros before.length current longest groups) := by
  induction groups generalizing before current longest with
  | nil => simpa [longestZeros] using hlongest
  | cons g gs ih =>
    have hsplit : before ++ g :: gs = (before ++ [g]) ++ gs := by simp
    have hlength : before.length + 1 = (before ++ [g]).length := by simp
    have hnone : IsZeros (before ++ [g]) (0, 0) := ⟨by simp, fun i _ hi => by simp at hi⟩
    rw [longestZeros, hsplit, hlength]
    by_cases hg : g = 0
    · subst hg
      -- the run that ends here now includes this group
      have hnext : ∀ start, start + current.2 = before.length →
          (∀ i, start ≤ i → i < before.length → before[i]? = some 0) →
          IsZeros (before ++ [0]) (start, current.2 + 1) := by
        intro start hstart hzeros
        refine ⟨by simp; omega, fun i hlow hhigh => ?_⟩
        by_cases hi : i < before.length
        · rw [List.getElem?_append_left hi]
          exact hzeros i hlow hi
        · obtain rfl : i = before.length := by simp only at hhigh; omega
          simp
      have hrun : IsZeros (before ++ [0])
          (if current.2 = 0 then before.length else current.1, current.2 + 1) := by
        rcases hend with h0 | hend
        · rw [if_pos h0]
          exact hnext _ (by omega) fun i hlow hhigh => by omega
        · by_cases h0 : current.2 = 0
          · rw [if_pos h0]
            exact hnext _ (by omega) fun i hlow hhigh => by omega
          · rw [if_neg h0]
            exact hnext _ hend fun i hlow hhigh => hcurrent.2 i hlow (by omega)
      rw [if_pos rfl]
      refine ih hrun (.inr ?_) ?_
      · simp only [List.length_append, List.length_singleton]
        split <;> omega
      · by_cases hlt : longest.2 < current.2 + 1
        · simpa only [if_pos hlt] using hrun
        · simpa only [if_neg hlt] using hlongest.append [0]
    · rw [if_neg hg]
      exact ih hnone (.inl rfl) (hlongest.append [g])

theorem IsZeros.eq_append {start length : Nat} (h : IsZeros groups (start, length)) :
    groups = groups.take start ++ List.replicate length 0 ++ groups.drop (start + length) := by
  have hmiddle : (groups.drop start).take length = List.replicate length 0 := by
    have hle := h.1
    refine List.eq_replicate_iff.mpr ⟨by simp; omega, fun g hg => ?_⟩
    obtain ⟨i, hi, rfl⟩ := List.mem_iff_getElem.mp hg
    have hzero := h.2 (start + i) (by omega) (by simp at hi; simp only; omega)
    obtain ⟨_, hzero⟩ := List.getElem?_eq_some_iff.mp hzero
    rw [List.getElem_take, List.getElem_drop, hzero]
  rw [← hmiddle, List.append_assoc, ← List.drop_drop, List.take_append_drop, List.take_append_drop]

end Zeros

section Groups

variable {groups : List Nat} {rest : List Char}

theorem not_dot_mem_join (start : Bool) : '.' ∉ join ':' start (groups.map (Nat.toDigits 16)) := by
  have hdigits : ∀ {n : Nat}, '.' ∉ Nat.toDigits 16 n := by
    intro n hmem
    have hdigit := isSome_of_mem_toDigits (by decide) readable_sixteen hmem
    exact absurd hdigit (by decide)
  induction groups generalizing start with
  | nil => simp [join]
  | cons g gs ih =>
    rw [List.map_cons, join, List.mem_append, not_or]
    refine ⟨?_, ih false⟩
    cases start <;> simp [hdigits]

variable {cs : List Char} {k x y : Nat}

theorem readOctets_of_not_dot {start : Bool} (h : '.' ∉ cs) :
    afterSeparator ':' start (readOctets 4 true) cs = none := by
  have hnone : ∀ {cs : List Char}, '.' ∉ cs → readOctets 4 true cs = none := by
    intro cs h
    rw [Option.eq_none_iff_forall_ne_some]
    rintro ⟨octets, rest⟩ hread
    exact h (dot_mem_of_readOctets hread)
  cases cs with
  | nil => cases start <;> simp [afterSeparator, hnone]
  | cons c cs =>
    have hcs : '.' ∉ cs := fun hmem => h (List.mem_cons_of_mem _ hmem)
    cases start <;> simp [afterSeparator, hnone h, hnone hcs]

/-- What stands after the groups: nothing, or the gap. -/
def Gap (rest : List Char) : Prop := rest = [] ∨ ∃ more, rest = ':' :: ':' :: more

theorem Gap.ends (h : Gap rest) : Ends 16 rest := by
  rcases h with rfl | ⟨more, rfl⟩
  · simp [Ends]
  · exact Ends.cons (by decide) _

/-- Groups are read back up to the gap. -/
theorem readGroups_join (start : Bool) (hk : groups.length ≤ k) (hg : ∀ g ∈ groups, g < 65536)
    (hdot : '.' ∉ rest) (hrest : Gap rest) :
    readGroups k start (join ':' start (groups.map (Nat.toDigits 16)) ++ rest) =
      (groups, false, rest) := by
  induction groups generalizing k start with
  | nil =>
    cases k with
    | zero => rfl
    | succ k =>
      have hnumber : afterSeparator ':' start (readNumber 16 4 65536 true) rest = none := by
        rcases hrest with rfl | ⟨more, rfl⟩ <;> cases start <;>
          simp [afterSeparator, readNumber, toDigit]
      rw [List.map_nil, join, List.nil_append, readGroups, readOctets_of_not_dot hdot, hnumber]
      simp
  | cons g gs ih =>
    obtain ⟨k, rfl⟩ : ∃ l, k = l + 1 := ⟨k - 1, by simp at hk; omega⟩
    have hends : Ends 16 (join ':' false (gs.map (Nat.toDigits 16)) ++ rest) := by
      cases gs with
      | nil => exact hrest.ends
      | cons g' gs =>
        exact Ends.cons (by decide) _
    have hdots : '.' ∉ join ':' start ((g :: gs).map (Nat.toDigits 16)) ++ rest := by
      rw [List.mem_append, not_or]
      exact ⟨not_dot_mem_join start, hdot⟩
    have hlt : g < 65536 := hg g (by simp)
    rw [readGroups, readOctets_of_not_dot hdots, List.map_cons, join, List.append_assoc,
      afterSeparator_cons, readNumber_toDigits true (by decide) readable_sixteen (by decide)
        (by omega) hlt hends]
    simp [ih false (by simpa using hk) fun g h => hg g (by simp [h])]

theorem readV6_showGroups (hlength : groups.length = 8) (hg : ∀ g ∈ groups, g < 65536) :
    readV6 (showGroups groups) = some (groups, []) := by
  have hread := readGroups_join true hlength.le hg (by simp : '.' ∉ []) (.inl rfl)
  rw [List.append_nil] at hread
  simp [readV6, showGroups, hread, hlength]

theorem readV6_gap {head tail : List Nat} (hlength : head.length + tail.length ≤ 6)
    (hhead : ∀ g ∈ head, g < 65536) (htail : ∀ g ∈ tail, g < 65536) :
    readV6 (showGroups head ++ "::".toList ++ showGroups tail) =
      some (head ++ List.replicate (8 - head.length - tail.length) 0 ++ tail, []) := by
  have hdot : '.' ∉ "::".toList ++ showGroups tail := by
    simpa [showGroups] using @not_dot_mem_join tail true
  have hfront := readGroups_join true (Nat.le_trans (by omega) (by decide : 6 ≤ 8)) hhead hdot
    (.inr ⟨_, rfl⟩)
  have hback := readGroups_join (k := 7 - head.length) true (by omega) htail (by simp : '.' ∉ [])
    (.inl rfl)
  rw [List.append_nil] at hback
  have hne : head.length ≠ 8 := by omega
  rw [List.append_assoc, readV6, showGroups, hfront]
  simp [showGroups, hback, hne]

theorem Ends.readOctets (h : Ends 10 cs) (k : Nat) : readOctets (k + 1) true cs = none := by
  rw [IpAddress.readOctets, afterSeparator_start, h.readNumber]
  rfl

/-- The last two groups are read from the text of an IPv4 address. -/
theorem readGroups_mapped (hx : x < 65536) (hy : y < 65536) : readGroups (k + 3) true
        (['f', 'f', 'f', 'f', ':'] ++ showOctets [x / 256, x % 256, y / 256, y % 256]) =
      ([65535, x, y], true, []) := by
  have hoctets : readOctets 4 true (showOctets [x / 256, x % 256, y / 256, y % 256]) =
      some ([x / 256, x % 256, y / 256, y % 256], []) := by
    have hread := readOctets_join true
      (by simp; omega : ∀ o ∈ [x / 256, x % 256, y / 256, y % 256], o < 256)
      (by simp [Ends] : Ends 10 [])
    rwa [List.append_nil] at hread
  have hgroup : readNumber 16 4 65536 true (Nat.toDigits 16 65535 ++
      ':' :: showOctets [x / 256, x % 256, y / 256, y % 256]) = some (65535, _) :=
    readNumber_toDigits true (by decide) readable_sixteen (by decide) (by decide) (by decide)
      (Ends.cons (by decide) _)
  have hsplit : ['f', 'f', 'f', 'f', ':'] ++ showOctets [x / 256, x % 256, y / 256, y % 256] =
      Nat.toDigits 16 65535 ++ ':' :: showOctets [x / 256, x % 256, y / 256, y % 256] := rfl
  have hnone : Ends 10 (Nat.toDigits 16 65535 ++
      ':' :: showOctets [x / 256, x % 256, y / 256, y % 256]) := Ends.cons (by decide) _
  have hx' := Nat.div_add_mod x 256
  have hy' := Nat.div_add_mod y 256
  rw [hsplit, readGroups, afterSeparator_start, hnone.readOctets, afterSeparator_start, hgroup]
  simp only [ite_self]
  rw [readGroups]
  simp [afterSeparator, hoctets, ofParts, hx', hy']

theorem readV6_mapped (hx : x < 65536) (hy : y < 65536) :
    readV6 ("::ffff:".toList ++ showOctets [x / 256, x % 256, y / 256, y % 256]) =
      some ([0, 0, 0, 0, 0, 65535, x, y], []) := by
  have htail := readGroups_mapped (k := 4) hx hy
  have hten : Ends 10 ("::ffff:".toList ++ showOctets [x / 256, x % 256, y / 256, y % 256]) :=
    Ends.cons (by decide) _
  have hsixteen : Ends 16 ("::ffff:".toList ++ showOctets [x / 256, x % 256, y / 256, y % 256]) :=
    Ends.cons (by decide) _
  rw [readV6, readGroups, afterSeparator_start, hten.readOctets, afterSeparator_start,
    hsixteen.readNumber]
  simp only [List.cons_append, List.nil_append] at htail
  simp [htail]

theorem readV6_showCompressed (hlength : groups.length = 8) (hg : ∀ g ∈ groups, g < 65536) :
    readV6 (showCompressed groups) = some (groups, []) := by
  have hnone : IsZeros [] (0, 0) := ⟨by simp, fun i _ hi => by simp at hi⟩
  have hzeros : IsZeros groups (longestZeros 0 (0, 0) (0, 0) groups) :=
    isZeros_longestZeros hnone (.inl rfl) hnone
  rw [showCompressed]
  generalize longestZeros 0 (0, 0) (0, 0) groups = zeros at hzeros
  obtain ⟨start, length⟩ := zeros
  dsimp only at hzeros ⊢
  split
  · have hend := hzeros.1
    have hhead : (groups.take start).length = start := by simp; omega
    have htail : (groups.drop (start + length)).length = 8 - (start + length) := by simp [hlength]
    have hcount : 8 - start - (8 - (start + length)) = length := by omega
    rw [readV6_gap (by omega) (fun g h => hg g (List.mem_of_mem_take h))
      (fun g h => hg g (List.mem_of_mem_drop h)), hhead, htail, hcount, ← hzeros.eq_append]
  · exact readV6_showGroups hlength hg

end Groups

theorem parseV6_showV6 (a : BitVec 128) : parseV6 (showV6 a) = some a := by
  have hlength := length_parts 65536 8 a.toNat
  have hlt : ∀ g ∈ parts 65536 8 a.toNat, g < 65536 := fun g hg => lt_of_mem_parts (by decide) hg
  have hread : readV6 (showV6 a) = some (parts 65536 8 a.toNat, []) := by
    rw [showV6]
    split
    · next x y heq =>
      rw [heq] at hlt
      rw [heq, readV6_mapped (hlt x (by simp)) (hlt y (by simp))]
    · exact readV6_showCompressed hlength hlt
  rw [parseV6, hread]
  simp [ofParts_parts, Nat.mod_eq_of_lt a.isLt]

end IpAddress
