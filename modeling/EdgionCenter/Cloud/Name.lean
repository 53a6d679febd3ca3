import EdgionCenter.Core
import EdgionCenter.Lib.Fallible
import EdgionCenter.Lib.IpAddress
import EdgionCenter.Lib.Segments
import EdgionCenter.Text

/-! Canonical DNS names. -/
namespace EdgionCenter

open Fallible

/-- `Ipv4Addr` and `Ipv6Addr` by their bits. -/
abbrev Ipv4Addr := BitVec 32
abbrev Ipv6Addr := BitVec 128

def showIpv4 (a : Ipv4Addr) : String := String.ofList (IpAddress.showV4 a)
def parseIpv4 (s : String) : Option Ipv4Addr := IpAddress.parseV4 s.toList
def showIpv6 (a : Ipv6Addr) : String := String.ofList (IpAddress.showV6 a)
def parseIpv6 (s : String) : Option Ipv6Addr := IpAddress.parseV6 s.toList

@[simp] theorem parseIpv4_showIpv4 (a : Ipv4Addr) : parseIpv4 (showIpv4 a) = some a := by
  rw [parseIpv4, showIpv4, String.toList_ofList, IpAddress.parseV4_showV4]

@[simp] theorem parseIpv6_showIpv6 (a : Ipv6Addr) : parseIpv6 (showIpv6 a) = some a := by
  rw [parseIpv6, showIpv6, String.toList_ofList, IpAddress.parseV6_showV6]

/-- Letters, digits and the hyphen. -/
def isHostChar (c : Char) : Bool := c.isAlphanum || c == '-'

/-- What the DNS code takes from the `idna` crate. `idna::domain_to_ascii` leaves the host labels it
has produced alone. -/
class Platform where
  domainToAscii : String → Option String
  domainToAscii_idem : ∀ {l a : String}, domainToAscii l = some a →
    a.toList.all isHostChar = true →
    (domainToAscii (asciiLower a)).map asciiLower = some (asciiLower a)

section Ascii

theorem ascii_asciiLower {s : String} (h : s.toList.all (fun c => c.toNat < 128) = true) :
    (asciiLower s).toList.all (fun c => c.toNat < 128) = true := by
  simp only [List.all_eq_true, decide_eq_true_eq] at h
  simp only [asciiLower, String.toList_ofList, List.all_map, List.all_eq_true, Function.comp_apply,
    decide_eq_true_eq]
  intro c hc
  have := h c hc
  rw [toNat_toLower]
  split <;> omega

/-- A platform whose IDNA conversion only knows ASCII labels. -/
@[reducible] def asciiPlatform : Platform where
  domainToAscii l := if l.toList.all (fun c => c.toNat < 128) then some (asciiLower l) else none
  domainToAscii_idem := by
    intro l a h _
    split at h
    · rename_i hl
      cases h
      simp only [asciiLower_asciiLower, ascii_asciiLower hl, if_true, Option.map_some]
    · cases h

end Ascii

/-- The shape of a label over the given characters. -/
def isLabel (allowed : Char → Bool) (label : List Char) : Bool :=
  label ≠ [] && utf8Len label ≤ 63 && label.head? ≠ some '-' && label.getLast? ≠ some '-' &&
    label.all allowed

def isOwnerChar (c : Char) : Bool := c.isAlphanum || c == '-' || c == '_'

section Labels

variable {label : List Char} {allowed : Char → Bool}

theorem isLabel_ne_nil (h : isLabel allowed label = true) : label ≠ [] := by
  simp only [isLabel, Bool.and_eq_true, decide_eq_true_eq] at h
  exact h.1.1.1.1

theorem allowed_of_isLabel (h : isLabel allowed label = true) : ∀ c ∈ label, allowed c = true := by
  simp only [isLabel, Bool.and_eq_true, List.all_eq_true] at h
  exact h.2

theorem not_mem_of_isLabel (h : isLabel allowed label = true) {c : Char} (hc : allowed c = false) :
    c ∉ label := by
  intro hm
  rw [allowed_of_isLabel h c hm] at hc
  cases hc

theorem isOwnerChar_toLower (c : Char) : isOwnerChar c.toLower = isOwnerChar c := by
  have hdash : c.toLower = '-' ↔ c = '-' := toLower_eq_iff (by decide) (by decide)
  have hline : c.toLower = '_' ↔ c = '_' := toLower_eq_iff (by decide) (by decide)
  rw [Bool.eq_iff_iff]
  simp only [isOwnerChar, isAlphanum_toLower, Bool.or_eq_true, beq_iff_eq, hdash, hline]

theorem isHostChar_toLower (c : Char) : isHostChar c.toLower = isHostChar c := by
  have hdash : c.toLower = '-' ↔ c = '-' := toLower_eq_iff (by decide) (by decide)
  rw [Bool.eq_iff_iff]
  simp only [isHostChar, isAlphanum_toLower, Bool.or_eq_true, beq_iff_eq, hdash]

theorem all_isHostChar_of_lower {a : String} (h : isLabel isHostChar (asciiLower a).toList = true) :
    a.toList.all isHostChar = true := by
  rw [List.all_eq_true]
  intro c hc
  have hlower : c.toLower ∈ (asciiLower a).toList := by
    rw [asciiLower, String.toList_ofList]
    exact List.mem_map_of_mem hc
  rw [← isHostChar_toLower]
  exact allowed_of_isLabel h _ hlower

theorem isLabel_map_toLower (h : isLabel isOwnerChar label = true) :
    isLabel isOwnerChar (label.map Char.toLower) = true := by
  have hdash : ∀ c : Char, c.toLower = '-' ↔ c = '-' :=
    fun c => toLower_eq_iff (by decide) (by decide)
  simp only [isLabel, Bool.and_eq_true, decide_eq_true_eq] at h ⊢
  refine ⟨⟨⟨⟨?_, ?_⟩, ?_⟩, ?_⟩, ?_⟩
  · simpa using h.1.1.1.1
  · rw [utf8Len_map_toLower]
    exact h.1.1.1.2
  · simpa [List.head?_map, hdash] using h.1.1.2
  · simpa [List.getLast?_map, hdash] using h.1.2
  · simpa [isOwnerChar_toLower, Function.comp_def] using h.2

theorem getLast?_intercalate {labels : List (List Char)} (hne : labels ≠ [])
    (h : ∀ l ∈ labels, l ≠ [] ∧ '.' ∉ l) :
    ['.'].intercalate labels ≠ [] ∧ (['.'].intercalate labels).getLast? ≠ some '.' := by
  induction labels with
  | nil => exact absurd rfl hne
  | cons label labels ih =>
    obtain ⟨hl, hdot⟩ := h label (by simp)
    cases labels with
    | nil =>
      refine ⟨by simpa using hl, ?_⟩
      intro he
      exact hdot (List.mem_of_getLast? (by simpa using he))
    | cons next labels =>
      obtain ⟨hn, hlast⟩ := ih (by simp) fun l hm => h l (by simp [hm])
      rw [List.intercalate_cons_cons]
      refine ⟨by simp [hl], ?_⟩
      obtain ⟨c, hc⟩ := Option.ne_none_iff_exists'.mp (mt List.getLast?_eq_none_iff.mp hn)
      rw [hc] at hlast
      simpa [List.getLast?_append, List.getLast?_cons, hc] using hlast

end Labels

variable [Platform]

/-- One turn of the label loop of `normalize_name`. -/
def normalizeLabel (allowUnderscore wildcard : Bool) (label : List Char) : CoreResult (List Char) :=
  if label = ['*'] ∧ wildcard then .ok ['*']
  else if '_' ∈ label then
    if allowUnderscore && isLabel isOwnerChar label then .ok (label.map Char.toLower)
    else .error (.conflict "DNS owner label is invalid")
  else
    match Platform.domainToAscii (String.ofList label) with
    | none => .error (.conflict "DNS IDNA label is invalid")
    | some a =>
      let ascii := (asciiLower a).toList
      if isLabel isHostChar ascii then .ok ascii else .error (.conflict "DNS label is invalid")

/-- A wildcard is allowed as the first label only. -/
def normalizeLabels (allowUnderscore : Bool) :
    Bool → List (List Char) → CoreResult (List (List Char))
  | _, [] => .ok []
  | wildcard, label :: labels => do
    let normalized ← normalizeLabel allowUnderscore wildcard label
    let rest ← normalizeLabels allowUnderscore false labels
    return normalized :: rest

/-- `strip_suffix('.')`, or the value itself. -/
def stripDot (value : List Char) : List Char :=
  if value.getLast? = some '.' then value.dropLast else value

def normalizeName (value : String) (allowUnderscore allowWildcard : Bool) : CoreResult String :=
  let value := stripDot value.toList
  if value = [] ∨ value.getLast? = some '.' then .error (.conflict "DNS name is invalid")
  else do
    let labels ← normalizeLabels allowUnderscore allowWildcard (value.splitOn '.')
    let normalized := ['.'].intercalate labels
    if utf8Len normalized > 253 then .error (.conflict "DNS name is too long")
    else .ok (String.ofList normalized)

section Idempotent

variable {u w : Bool} {label canonical : List Char}

/-- A label that normalising leaves alone. -/
structure CanonicalLabel (u w : Bool) (label : List Char) : Prop where
  fixed : normalizeLabel u w label = .ok label
  ne_nil : label ≠ []
  no_dot : '.' ∉ label

theorem canonical_of_normalizeLabel (h : normalizeLabel u w label = .ok canonical) :
    CanonicalLabel u w canonical := by
  unfold normalizeLabel at h
  split at h
  · rename_i hstar
    cases h
    exact ⟨by simp [normalizeLabel, hstar.2], by simp, by decide⟩
  · split at h
    · -- an owner label keeps its underscore, so it is read the same way again
      rename_i hline
      split at h
      · rename_i hok
        cases h
        rw [Bool.and_eq_true] at hok
        have hlower := isLabel_map_toLower hok.2
        have hmem : '_' ∈ label.map Char.toLower := List.mem_map.mpr ⟨'_', hline, by decide⟩
        have hne : label.map Char.toLower ≠ ['*'] := by
          intro he
          rw [he] at hmem
          simp at hmem
        refine ⟨?_, isLabel_ne_nil hlower, not_mem_of_isLabel hlower (by decide)⟩
        simp only [normalizeLabel, hne, false_and, ↓reduceIte, hmem, hok.1, hlower, Bool.and_self,
          map_toLower_toLower]
      · cases h
    · split at h
      · cases h
      · rename_i a ha
        dsimp only at h
        split at h
        · rename_i hok
          cases h
          have hline : '_' ∉ (asciiLower a).toList := not_mem_of_isLabel hok (by decide)
          have hne : (asciiLower a).toList ≠ ['*'] := by
            intro he
            have hstar : '*' ∉ (asciiLower a).toList := not_mem_of_isLabel hok (by decide)
            simp [he] at hstar
          refine ⟨?_, isLabel_ne_nil hok, not_mem_of_isLabel hok (by decide)⟩
          obtain ⟨b, hb, hbl⟩ := Option.map_eq_some_iff.mp
            (Platform.domainToAscii_idem ha (all_isHostChar_of_lower hok))
          simp only [normalizeLabel, hne, false_and, ↓reduceIte, hline, String.ofList_toList, hb, hbl,
            hok]
        · cases h

variable {labels normalized : List (List Char)} {value name : String}

theorem canonical_of_normalizeLabels (h : normalizeLabels u w labels = .ok normalized) :
    normalizeLabels u w normalized = .ok normalized ∧
      (∀ l ∈ normalized, l ≠ [] ∧ '.' ∉ l) ∧ normalized.length = labels.length := by
  induction labels generalizing w normalized with
  | nil =>
    cases h
    exact ⟨rfl, by simp, rfl⟩
  | cons label labels ih =>
    simp only [normalizeLabels, bind_eq_ok, pure_eq_ok] at h
    obtain ⟨l, hl, rest, hrest, rfl⟩ := h
    have hc := canonical_of_normalizeLabel hl
    obtain ⟨hfix, hall, hlen⟩ := ih hrest
    refine ⟨?_, ?_, by simp [hlen]⟩
    · simp only [normalizeLabels, bind_eq_ok, pure_eq_ok]
      exact ⟨l, hc.fixed, rest, hfix, rfl⟩
    · exact List.forall_mem_cons.mpr ⟨⟨hc.ne_nil, hc.no_dot⟩, hall⟩

/-- A normalised name is made of labels that normalising leaves alone. -/
structure CanonicalName (u w : Bool) (labels : List (List Char)) : Prop where
  fixed : normalizeLabels u w labels = .ok labels
  ne_nil : labels ≠ []
  label : ∀ l ∈ labels, l ≠ [] ∧ '.' ∉ l
  short : utf8Len (['.'].intercalate labels) ≤ 253

theorem labels_of_normalizeName (h : normalizeName value u w = .ok name) :
    ∃ labels, CanonicalName u w labels ∧ name = String.ofList (['.'].intercalate labels) := by
  unfold normalizeName at h
  dsimp only at h
  split at h
  · cases h
  · simp only [bind_eq_ok] at h
    obtain ⟨labels, hl, h⟩ := h
    split at h
    · cases h
    · rename_i hlen
      cases h
      obtain ⟨hfix, hall, hlength⟩ := canonical_of_normalizeLabels hl
      have hne : labels ≠ [] := by
        intro he
        rw [he] at hlength
        exact List.splitOn_ne_nil _ _ (List.length_eq_zero_iff.mp hlength.symm)
      exact ⟨labels, ⟨hfix, hne, hall, by omega⟩, rfl⟩

/-- Canonical labels are a name, with or without a dot at the end. -/
theorem CanonicalName.normalizeName (h : CanonicalName u w labels)
    (hvalue : stripDot value.toList = ['.'].intercalate labels) :
    normalizeName value u w = .ok (String.ofList (['.'].intercalate labels)) := by
  obtain ⟨hnil, hlast⟩ := getLast?_intercalate h.ne_nil h.label
  have hsplit : (['.'].intercalate labels).splitOn '.' = labels :=
    List.splitOn_intercalate '.' (fun l hm => (h.label l hm).2) h.ne_nil
  unfold EdgionCenter.normalizeName
  simp only [hvalue, hnil, hlast, or_self, ↓reduceIte, hsplit, bind_eq_ok]
  exact ⟨labels, h.fixed, by simp [h.short]⟩

theorem CanonicalName.stripDot (h : CanonicalName u w labels) :
    stripDot (['.'].intercalate labels) = ['.'].intercalate labels := by
  simp [EdgionCenter.stripDot, (getLast?_intercalate h.ne_nil h.label).2]

/-- A normalised name is normalised to itself. -/
theorem normalizeName_idem (h : normalizeName value u w = .ok name) :
    normalizeName name u w = .ok name := by
  obtain ⟨labels, hc, rfl⟩ := labels_of_normalizeName h
  apply hc.normalizeName
  rw [String.toList_ofList]
  exact hc.stripDot

theorem normalizeName_dot (h : normalizeName value u w = .ok name) :
    normalizeName (name ++ ".") u w = .ok name := by
  obtain ⟨labels, hc, rfl⟩ := labels_of_normalizeName h
  apply hc.normalizeName
  simp [EdgionCenter.stripDot]

/-- The characters of canonical names. -/
def isNameChar (c : Char) : Bool := isOwnerChar c || c == '*' || c == '.'

theorem isNameChar_of_normalizeLabel (h : normalizeLabel u w label = .ok canonical) :
    ∀ c ∈ canonical, isNameChar c = true := by
  have hlabel : ∀ {allowed : Char → Bool}, (∀ c, allowed c = true → isOwnerChar c = true) →
      isLabel allowed canonical = true → ∀ c ∈ canonical, isNameChar c = true := by
    intro allowed himp hl c hc
    simp [isNameChar, himp c (allowed_of_isLabel hl c hc)]
  unfold normalizeLabel at h
  split at h
  · cases h
    simp [isNameChar]
  · split at h
    · split at h
      · rename_i hok
        rw [Bool.and_eq_true] at hok
        cases h
        exact hlabel (fun _ => id) (isLabel_map_toLower hok.2)
      · cases h
    · split at h
      · cases h
      · dsimp only at h
        split at h
        · rename_i hok
          cases h
          apply hlabel _ hok
          intro c hc
          simp only [isHostChar, isOwnerChar, Bool.or_eq_true] at hc ⊢
          exact .inl hc
        · cases h

/-- What holds of every normalised label holds of the labels of a normalised name. -/
theorem forall_of_normalizeLabels {P : List Char → Prop}
    (hP : ∀ {w label canonical}, normalizeLabel u w label = .ok canonical → P canonical)
    (h : normalizeLabels u w labels = .ok normalized) : ∀ l ∈ normalized, P l := by
  induction labels generalizing w normalized with
  | nil =>
    cases h
    simp
  | cons label labels ih =>
    simp only [normalizeLabels, bind_eq_ok, pure_eq_ok] at h
    obtain ⟨l, hl, rest, hrest, rfl⟩ := h
    intro x hx
    rcases List.mem_cons.mp hx with rfl | hx
    · exact hP hl
    · exact ih hrest x hx

theorem isNameChar_of_normalizeName (h : normalizeName value u w = .ok name) :
    ∀ c ∈ name.toList, isNameChar c = true := by
  obtain ⟨labels, hc, rfl⟩ := labels_of_normalizeName h
  rw [String.toList_ofList]
  intro c hin
  rcases Segments.mem_intercalate hin with rfl | ⟨l, hl, hin⟩
  · decide
  · exact forall_of_normalizeLabels isNameChar_of_normalizeLabel hc.fixed l hl c hin

end Idempotent

/-- A lowercase ASCII name without a trailing dot. -/
structure AbsoluteDnsName where
  value : String
  canonical : normalizeName value false false = .ok value
  deriving DecidableEq

/-- An owner name: underscore labels and a wildcard first label are allowed. -/
structure DnsOwnerName where
  value : String
  canonical : normalizeName value true true = .ok value
  deriving DecidableEq

namespace AbsoluteDnsName

def new (value : String) : CoreResult AbsoluteDnsName :=
  match h : normalizeName value false false with
  | .ok name => .ok ⟨name, normalizeName_idem h⟩
  | .error e => .error e

def fqdn (name : AbsoluteDnsName) : String := name.value ++ "."

theorem new_eq_ok {value : String} {name : AbsoluteDnsName} :
    new value = .ok name ↔ normalizeName value false false = .ok name.value := by
  obtain ⟨n, hn⟩ := name
  unfold new
  split <;> simp [*]

theorem new_value (name : AbsoluteDnsName) : new name.value = .ok name :=
  new_eq_ok.mpr name.canonical

theorem new_fqdn (name : AbsoluteDnsName) : new name.fqdn = .ok name :=
  new_eq_ok.mpr (normalizeName_dot name.canonical)

end AbsoluteDnsName

namespace DnsOwnerName

def new (value : String) : CoreResult DnsOwnerName :=
  match h : normalizeName value true true with
  | .ok name => .ok ⟨name, normalizeName_idem h⟩
  | .error e => .error e

def fqdn (name : DnsOwnerName) : String := name.value ++ "."

def isWithin (name : DnsOwnerName) (apex : AbsoluteDnsName) : Bool :=
  name.value = apex.value || endsWith name.value ("." ++ apex.value)

theorem new_eq_ok {value : String} {name : DnsOwnerName} :
    new value = .ok name ↔ normalizeName value true true = .ok name.value := by
  obtain ⟨n, hn⟩ := name
  unfold new
  split <;> simp [*]

theorem new_value (name : DnsOwnerName) : new name.value = .ok name :=
  new_eq_ok.mpr name.canonical

theorem new_fqdn (name : DnsOwnerName) : new name.fqdn = .ok name :=
  new_eq_ok.mpr (normalizeName_dot name.canonical)

end DnsOwnerName

end EdgionCenter
