import StagedColumns.Proofs.Address.Spelling

/-!
# Canonical names

The canonical text of an address spells the address, so it is read back as the same address
(`ofText?_text`), and a canonical name is read as what the name itself is read as
(`ofText?_canonicalName`). Names therefore have one canonical form exactly where they spell one
address or are the same but for the blanks around them.
-/

set_option autoImplicit false

namespace StagedColumns

open Text

namespace Address

/-! ### Bounds -/

theorem Group.lt {cs : List Char} {n : Nat} (h : Group cs n) : n < 65536 :=
  calc n < 16 ^ cs.length := h.numeral.lt (by decide) fun _ _ ↦ hexValue?_lt
    _ ≤ 16 ^ 4 := Nat.pow_le_pow_right (by decide) h.length_le

theorem DottedQuad.le {octet : List Char → Nat → Prop} {cs : List Char} {numbers : List Nat}
    (h : DottedQuad octet cs numbers) (hoctet : ∀ part n, octet part n → n ≤ 255) :
    ∀ n ∈ numbers, n ≤ 255 := by
  obtain ⟨parts, -, -, hall⟩ := h
  exact forall_mem_of_forall₂ hall.flip fun n part hpart ↦ hoctet part n hpart

theorem GroupsThenQuad.lt {parts : List (List Char)} {groups : List Nat}
    (h : GroupsThenQuad parts groups) : ∀ n ∈ groups, n < 65536 := by
  induction h with
  | none => exact nofun
  | quad hquad =>
    have hle := hquad.le fun part n hpart ↦ hpart.le
    simp only [List.forall_mem_cons] at hle ⊢
    refine ⟨?_, ?_, nofun⟩ <;> omega
  | cons hfirst _ ih => exact List.forall_mem_cons.mpr ⟨hfirst.lt, ih⟩

theorem SpellsGroups.length_eq {cs : List Char} {groups : List Nat} (h : SpellsGroups cs groups) :
    groups.length = 8 := by
  cases h with
  | full _ hlength => exact hlength
  | shortened _ _ hlength =>
    simp only [List.length_append, List.length_replicate]
    omega

theorem SpellsGroups.lt {cs : List Char} {groups : List Nat} (h : SpellsGroups cs groups) :
    ∀ n ∈ groups, n < 65536 := by
  cases h with
  | full hparts => exact hparts.lt
  | shortened hfront hback =>
    have hhigh := (GroupsThenQuad.of_forall₂ hfront).lt
    intro n hn
    simp only [List.mem_append, List.mem_replicate] at hn
    rcases hn with (hn | ⟨-, rfl⟩) | hn
    · exact hhigh n hn
    · omega
    · exact hback.lt n hn

/-! ### Reading back -/

theorem octet_toDigits {value? : Char → Option Nat}
    (hvalue : ∀ digit < 10, value? digit.digitChar = some digit) {n : Nat} (hn : n ≤ 255) :
    Octet value? (Nat.toDigits 10 n) n where
  length_pos := Nat.length_toDigits_pos
  length_le := Nat.toDigits_length 10 n 3 (by decide) (by omega)
  numeral := by
    rw [← readDigits_eq_some_iff]
    simpa using readDigits_toDigits (by decide) id hvalue n
  le := hn

theorem group_upperHex {n : Nat} (hn : n < 65536) : Group (upperHex n) n where
  length_pos := by
    rw [upperHex, List.length_map]
    exact Nat.length_toDigits_pos
  length_le := by
    rw [upperHex, List.length_map]
    exact Nat.toDigits_length 16 n 4 (by decide) (by omega)
  numeral := readDigits_eq_some_iff.mp (readDigits_toDigits (by decide) Char.toUpper (by decide) n)

theorem toList_text_quad (numbers : List Nat) :
    (text (.quad numbers)).toList = ['.'].intercalate (numbers.map (Nat.toDigits 10)) := by
  rw [text, String.toList_intercalate, List.map_map]
  exact congrArg _ (List.map_congr_left fun n _ ↦ Nat.toList_repr)

theorem toList_text_groups (groups : List Nat) :
    (text (.groups groups)).toList = [':'].intercalate (groups.map upperHex) := by
  rw [text, String.toList_intercalate, List.map_map]
  exact congrArg _ (List.map_congr_left fun n _ ↦ String.toList_ofList)

/-- The canonical text of an address that some text spells is read as that address. -/
theorem ofText?_text {cs : List Char} {address : Address} (h : Spells cs address) :
    ofText? address.text.toList = some address := by
  rw [ofText?_eq_some_iff]
  cases h with
  | @quad numbers h =>
    refine .quad ⟨numbers.map (Nat.toDigits 10), toList_text_quad numbers, ?_, ?_⟩
    · rw [List.length_map, h.length_eq]
    · rw [List.forall₂_map_left_iff, List.forall₂_same]
      exact fun n hn ↦ octet_toDigits (by decide) (h.le (fun part n hpart ↦ hpart.le) n hn)
  | @groups parts h =>
    have hparts : List.Forall₂ Group (parts.map upperHex) parts := by
      rw [List.forall₂_map_left_iff, List.forall₂_same]
      exact fun n hn ↦ group_upperHex (h.lt n hn)
    have hfull := SpellsGroups.full (.of_forall₂ hparts) h.length_eq
    exact .groups (toList_text_groups parts ▸ hfull)

/-! ### Numbers of 128 bits -/

/-- The text spells eight groups of sixteen bits that make up the number. -/
def Denotes (cs : List Char) (n : BitVec 128) : Prop :=
  ∃ groups, SpellsGroups cs groups ∧ n.toNat = Nat.ofDigits 65536 groups.reverse

/-- Texts denote one number exactly where they spell the same groups. -/
theorem exists_denotes_iff {cs other : List Char} :
    (∃ n, Denotes cs n ∧ Denotes other n) ↔
      ∃ groups, SpellsGroups cs groups ∧ SpellsGroups other groups := by
  constructor
  · rintro ⟨n, ⟨groups, hgroups, hn⟩, ⟨more, hmore, hm⟩⟩
    have hlength : groups.reverse.length = more.reverse.length := by
      simp [hgroups.length_eq, hmore.length_eq]
    have hsame : groups.reverse = more.reverse :=
      Nat.ofDigits_inj_of_len_eq (by decide) hlength
        (fun g hg ↦ hgroups.lt g (List.mem_reverse.mp hg))
        (fun g hg ↦ hmore.lt g (List.mem_reverse.mp hg)) (hn.symm.trans hm)
    exact ⟨groups, hgroups, List.reverse_injective hsame ▸ hmore⟩
  · rintro ⟨groups, hgroups, hother⟩
    have hlt : Nat.ofDigits 65536 groups.reverse < 2 ^ 128 := by
      have hbound := Nat.ofDigits_lt_base_pow_length (b := 65536) (l := groups.reverse) (by decide)
        fun g hg ↦ hgroups.lt g (List.mem_reverse.mp hg)
      rwa [List.length_reverse, hgroups.length_eq] at hbound
    have hvalue : (BitVec.ofNat 128 (Nat.ofDigits 65536 groups.reverse)).toNat =
        Nat.ofDigits 65536 groups.reverse := by
      rw [BitVec.toNat_ofNat, Nat.mod_eq_of_lt hlt]
    exact ⟨_, ⟨groups, hgroups, hvalue⟩, ⟨groups, hother, hvalue⟩⟩

end Address

/-! ### Names -/

open Address

variable {name : String}

theorem canonicalName_of_spells {address : Address} (h : Spells (trim name).toList address) :
    canonicalName name = address.text := by
  rw [trim, String.toList_ofList, ← ofText?_eq_some_iff] at h
  simp only [canonicalName, h]

theorem canonicalName_of_not_spells (h : ∀ address, ¬Spells (trim name).toList address) :
    canonicalName name = trim name := by
  have hnone : ofText? (trimBlanks name.toList) = none := by
    rw [Option.eq_none_iff_forall_not_mem]
    intro address haddress
    refine h address ?_
    rw [trim, String.toList_ofList]
    exact ofText?_eq_some_iff.mp haddress
  simp only [canonicalName, hnone]
  rfl

/-- A canonical name spells what the name spells. -/
theorem spells_canonicalName_iff {address : Address} :
    Spells (canonicalName name).toList address ↔ Spells (trim name).toList address := by
  by_cases h : ∃ address, Spells (trim name).toList address
  · obtain ⟨own, hown⟩ := h
    have hback := ofText?_eq_some_iff.mp (ofText?_text hown)
    rw [canonicalName_of_spells hown]
    exact ⟨fun h ↦ hback.unique h ▸ hown, fun h ↦ hown.unique h ▸ hback⟩
  · rw [canonicalName_of_not_spells (not_exists.mp h)]

/-- Two names have one canonical form exactly where they are the same but for the blanks around them
or spell one address. -/
theorem canonicalName_eq_iff_spells {a b : String} :
    canonicalName a = canonicalName b ↔ trim a = trim b ∨
      ∃ address, Spells (trim a).toList address ∧ Spells (trim b).toList address := by
  constructor
  · intro h
    by_cases ha : ∃ address, Spells (trim a).toList address
    · obtain ⟨address, haddress⟩ := ha
      have hb : Spells (trim b).toList address := by
        rw [← spells_canonicalName_iff, ← h, spells_canonicalName_iff]
        exact haddress
      exact .inr ⟨address, haddress, hb⟩
    · have ha := not_exists.mp ha
      have hb : ∀ address, ¬Spells (trim b).toList address := by
        intro address hb
        rw [← spells_canonicalName_iff, ← h, spells_canonicalName_iff] at hb
        exact ha address hb
      rw [canonicalName_of_not_spells ha, canonicalName_of_not_spells hb] at h
      exact .inl h
  · rintro (h | ⟨address, ha, hb⟩)
    · have hbare : trimBlanks a.toList = trimBlanks b.toList := String.ofList_injective h
      simp only [canonicalName, hbare]
    · rw [canonicalName_of_spells ha, canonicalName_of_spells hb]

/-- Two names have one canonical form exactly where they are the same but for the blanks around
them, are dotted quads of the same four numbers, or denote one address of 128 bits. So different
addresses stay different, an address stays different from what is none, and so do different names
that are no addresses, while all spellings of one address come together. -/
theorem canonicalName_eq_iff (a b : String) :
    (canonicalName a = canonicalName b ↔ trim a = trim b ∨
        (∃ numbers, DottedQuad (Octet digitValue?) (trim a).toList numbers ∧
          DottedQuad (Octet digitValue?) (trim b).toList numbers) ∨
        ∃ n : BitVec 128, Denotes (trim a).toList n ∧ Denotes (trim b).toList n) ∧
      (∀ address other, Spells (trim a).toList address → Spells (trim b).toList other →
        (canonicalName a = canonicalName b ↔ address = other)) ∧
      (∀ address, Spells (trim a).toList address → (∀ other, ¬Spells (trim b).toList other) →
        canonicalName a ≠ canonicalName b) ∧
      ((∀ address, ¬Spells (trim a).toList address) →
        (∀ other, ¬Spells (trim b).toList other) →
        (canonicalName a = canonicalName b ↔ trim a = trim b)) := by
  refine ⟨?_, fun address other ha hb ↦ ?_, fun address ha hb h ↦ ?_, fun ha hb ↦ ?_⟩
  · rw [canonicalName_eq_iff_spells, exists_denotes_iff]
    refine or_congr_right ⟨?_, ?_⟩
    · rintro ⟨address, ha | ha, hb | hb⟩
      · exact .inl ⟨_, ha, hb⟩
      · exact .inr ⟨_, ha, hb⟩
    · rintro (⟨numbers, ha, hb⟩ | ⟨groups, ha, hb⟩)
      · exact ⟨_, .quad ha, .quad hb⟩
      · exact ⟨_, .groups ha, .groups hb⟩
  · rw [canonicalName_eq_iff_spells]
    constructor
    · rintro (h | ⟨more, hamore, hbmore⟩)
      · exact ha.unique (h ▸ hb)
      · exact (ha.unique hamore).trans (hbmore.unique hb)
    · rintro rfl
      exact .inr ⟨address, ha, hb⟩
  · rw [← spells_canonicalName_iff, h, spells_canonicalName_iff] at ha
    exact hb address ha
  · rw [canonicalName_of_not_spells ha, canonicalName_of_not_spells hb]

/-- A shortened spelling that ends in a dotted quad is written out in full. -/
example : canonicalName " ::ffff:1.2.3.4" = "0:0:0:0:0:FFFF:102:304" := by decide

end StagedColumns
