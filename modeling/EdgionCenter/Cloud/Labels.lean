import EdgionCenter.Cloud.Name

/-! What normalising a DNS name gives: its labels, and which names lie within an apex. -/
namespace EdgionCenter

def nameLabels (name : String) : List (List Char) := name.toList.splitOn '.'

/-- Lowercase ASCII labels of a bounded length, and no dot at the end. -/
structure WellFormedName (name : String) : Prop where
  label : ∀ l ∈ nameLabels name, l ≠ [] ∧ utf8Len l ≤ 63
  noDot : name.toList.getLast? ≠ some '.'
  lower : ∀ c ∈ name.toList, c.toNat < 128 ∧ c.isUpper = false
  short : utf8Len name.toList ≤ 253

theorem length_of_isLabel {allowed : Char → Bool} {label : List Char}
    (h : isLabel allowed label = true) : utf8Len label ≤ 63 := by
  simp only [isLabel, Bool.and_eq_true, decide_eq_true_eq] at h
  exact h.1.1.1.2

theorem isUpper_toLower (c : Char) : c.toLower.isUpper = false := by
  rw [Bool.eq_false_iff]
  intro h
  have hrange : 65 ≤ c.toLower.toNat ∧ c.toLower.toNat ≤ 90 := by
    simpa [UInt32.le_iff_toNat_le, ← Char.toNat_val] using of_decide_eq_true h
  rw [toNat_toLower] at hrange
  split at hrange <;> omega

theorem ascii_of_isNameChar {c : Char} (h : isNameChar c = true) : c.toNat < 128 := by
  simp only [isNameChar, isOwnerChar, Bool.or_eq_true, beq_iff_eq, isAlphanum_iff] at h
  rcases h with ((((h | rfl) | rfl) | rfl) | rfl)
  · omega
  all_goals decide

variable [Platform] {u w : Bool}

theorem shape_of_normalizeLabel {w : Bool} {label canonical : List Char}
    (h : normalizeLabel u w label = .ok canonical) :
    utf8Len canonical ≤ 63 ∧ ∀ c ∈ canonical, c.isUpper = false := by
  unfold normalizeLabel at h
  split at h
  · cases h
    exact ⟨by decide, List.forall_mem_singleton.mpr (by decide)⟩
  · split at h
    · split at h
      · rename_i hok
        rw [Bool.and_eq_true] at hok
        cases h
        refine ⟨length_of_isLabel (isLabel_map_toLower hok.2), ?_⟩
        intro c hc
        obtain ⟨d, -, rfl⟩ := List.mem_map.mp hc
        exact isUpper_toLower d
      · cases h
    · split at h
      · cases h
      · dsimp only at h
        split at h
        · rename_i hok
          cases h
          refine ⟨length_of_isLabel hok, ?_⟩
          intro c hc
          rw [asciiLower, String.toList_ofList] at hc
          obtain ⟨d, -, rfl⟩ := List.mem_map.mp hc
          exact isUpper_toLower d
        · cases h

theorem CanonicalName.nameLabels_eq {labels : List (List Char)} (h : CanonicalName u w labels) :
    nameLabels (String.ofList (['.'].intercalate labels)) = labels := by
  rw [nameLabels, String.toList_ofList]
  exact List.splitOn_intercalate '.' (fun l hl => (h.label l hl).2) h.ne_nil

theorem wellFormed_of_normalizeName {value name : String} (h : normalizeName value u w = .ok name) :
    WellFormedName name := by
  have hchar := isNameChar_of_normalizeName h
  obtain ⟨labels, hc, rfl⟩ := labels_of_normalizeName h
  have hshape := forall_of_normalizeLabels shape_of_normalizeLabel hc.fixed
  refine ⟨?_, ?_, ?_, ?_⟩
  · intro l hl
    rw [hc.nameLabels_eq] at hl
    exact ⟨(hc.label l hl).1, (hshape l hl).1⟩
  · rw [String.toList_ofList]
    exact (getLast?_intercalate hc.ne_nil hc.label).2
  · intro c hin
    refine ⟨ascii_of_isNameChar (hchar c hin), ?_⟩
    rw [String.toList_ofList] at hin
    rcases Segments.mem_intercalate hin with rfl | ⟨l, hl, hin⟩
    · decide
    · exact (hshape l hl).2 c hin
  · rw [String.toList_ofList]
    exact hc.short

theorem isWithin_iff (owner : DnsOwnerName) (apex : AbsoluteDnsName) :
    owner.isWithin apex = true ↔ nameLabels apex.value <:+ nameLabels owner.value := by
  rw [nameLabels, nameLabels, Segments.splitOn_suffix_iff, String.toList_inj]
  simp [DnsOwnerName.isWithin, endsWith]

/-- Normalising gives well-formed names and leaves them alone; and an owner lies within an apex
exactly if its last labels are those of the apex. -/
theorem names_canonical : (∀ u w value name, normalizeName value u w = .ok name →
      WellFormedName name ∧ normalizeName name u w = .ok name) ∧
    ∀ (owner : DnsOwnerName) (apex : AbsoluteDnsName),
      owner.isWithin apex = true ↔ nameLabels apex.value <:+ nameLabels owner.value :=
  ⟨fun _ _ _ _ h => ⟨wellFormed_of_normalizeName h, normalizeName_idem h⟩, isWithin_iff⟩

omit [Platform] in
theorem names_canonical_upper :
    @normalizeName asciiPlatform "*.WWW.Example." true true = .ok "*.www.example" ∧
      WellFormedName "*.www.example" := by
  have h : @normalizeName asciiPlatform "*.WWW.Example." true true = .ok "*.www.example" := by
    decide +kernel
  exact ⟨h, ((@names_canonical asciiPlatform).1 _ _ _ _ h).1⟩

end EdgionCenter
