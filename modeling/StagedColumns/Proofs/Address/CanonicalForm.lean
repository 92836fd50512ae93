import StagedColumns.Proofs.Address.Canonical
import StagedColumns.Proofs.Text.Blank

/-!
# The canonical form of a name

An address has no blanks, so a canonical name has none at either end and is its own canonical name.
The canonical text of an address is written in one way for every number: decimal numbers without
leading zeros between points (`StrictOctet`), or eight groups of upper-case hexadecimal digits
without leading zeros between colons (`CanonicalGroup`). A name that is no address, as one with a
scope, only loses its blanks.
-/

set_option autoImplicit false

namespace StagedColumns

open Text

namespace Address

/-- A group as it is written in the canonical text: in upper case and without leading zeros. -/
structure CanonicalGroup (cs : List Char) (n : Nat) : Prop extends Group cs n where
  upper : ∀ c ∈ cs, c ∈ ['0', '1', '2', '3', '4', '5', '6', '7', '8', '9', 'A', 'B', 'C', 'D', 'E',
    'F']
  no_leading_zero : cs.head? = some '0' → cs = ['0']

/-! ### What the canonical text is written in -/

theorem strictOctet_toDigits {n : Nat} (hn : n ≤ 255) : StrictOctet (Nat.toDigits 10 n) n where
  toOctet := octet_toDigits (by decide) hn
  no_leading_zero h := by
    rw [eq_zero_of_head?_toDigits (by decide) h]
    rfl

theorem canonicalGroup_upperHex {n : Nat} (hn : n < 65536) : CanonicalGroup (upperHex n) n where
  toGroup := group_upperHex hn
  upper c hc := by
    have hall : ∀ digit < 16, digit.digitChar.toUpper ∈ ['0', '1', '2', '3', '4', '5', '6', '7',
        '8', '9', 'A', 'B', 'C', 'D', 'E', 'F'] := by
      decide
    obtain ⟨lower, hlower, rfl⟩ := List.mem_map.mp hc
    obtain ⟨digit, hdigit, rfl⟩ := exists_digit_of_mem_toDigits (by decide) hlower
    exact hall digit hdigit
  no_leading_zero h := by
    rw [upperHex, List.head?_map, Option.map_eq_some_iff] at h
    obtain ⟨lower, hlower, hupper⟩ := h
    have hall : ∀ digit < 16, digit.digitChar.toUpper = '0' → digit.digitChar = '0' := by
      decide
    obtain ⟨digit, hdigit, rfl⟩ :=
      exists_digit_of_mem_toDigits (by decide) (List.mem_of_mem_head? hlower)
    rw [hall digit hdigit hupper] at hlower
    rw [eq_zero_of_head?_toDigits (by decide) hlower]
    rfl

theorem dottedQuad_text {cs : List Char} {numbers : List Nat}
    (h : DottedQuad (Octet digitValue?) cs numbers) :
    DottedQuad StrictOctet (text (.quad numbers)).toList numbers := by
  refine ⟨numbers.map (Nat.toDigits 10), toList_text_quad numbers, ?_, ?_⟩
  · rw [List.length_map, h.length_eq]
  · rw [List.forall₂_map_left_iff, List.forall₂_same]
    exact fun n hn ↦ strictOctet_toDigits (h.le (fun part n hpart ↦ hpart.le) n hn)

theorem forall₂_canonicalGroup {cs : List Char} {groups : List Nat} (h : SpellsGroups cs groups) :
    List.Forall₂ CanonicalGroup (groups.map upperHex) groups := by
  rw [List.forall₂_map_left_iff, List.forall₂_same]
  exact fun n hn ↦ canonicalGroup_upperHex (h.lt n hn)

/-! ### Which characters an address has -/

variable {c : Char}

theorem not_mem_intercalate {separator : Char} (hc : c ≠ separator) {parts : List (List Char)}
    (hparts : ∀ part ∈ parts, c ∉ part) : c ∉ [separator].intercalate parts := by
  induction parts with
  | nil => simp [List.intercalate]
  | cons first rest ih =>
    obtain ⟨hfirst, hrest⟩ := List.forall_mem_cons.mp hparts
    cases rest with
    | nil => simpa using hfirst
    | cons next later => simp [List.intercalate_cons_cons, hfirst, hc, ih hrest]

theorem asciiDigitValue?_of_hexValue? (h : hexValue? c = none) : asciiDigitValue? c = none := by
  unfold hexValue? at h
  unfold asciiDigitValue?
  split at h
  · cases h
  · next hdigit => rw [if_neg hdigit]

theorem GroupsThenQuad.not_mem {parts : List (List Char)} {groups : List Nat}
    (h : GroupsThenQuad parts groups) (hpoint : c ≠ '.') (hhex : hexValue? c = Option.none) :
    ∀ part ∈ parts, c ∉ part := by
  induction h with
  | none => exact nofun
  | quad hquad =>
    refine List.forall_mem_singleton.mpr (hquad.not_mem hpoint fun part n hpart ↦ ?_)
    exact hpart.not_mem (asciiDigitValue?_of_hexValue? hhex)
  | cons hfirst _ ih => exact List.forall_mem_cons.mpr ⟨hfirst.not_mem hhex, ih⟩

theorem SpellsGroups.not_mem {cs : List Char} {groups : List Nat} (h : SpellsGroups cs groups)
    (hpoint : c ≠ '.') (hcolon : c ≠ ':') (hhex : hexValue? c = none) : c ∉ cs := by
  cases h with
  | full hparts => exact not_mem_intercalate hcolon (hparts.not_mem hpoint hhex)
  | shortened hfront hback =>
    have hhigh := not_mem_intercalate hcolon
      ((GroupsThenQuad.of_forall₂ hfront).not_mem hpoint hhex)
    have hlow := not_mem_intercalate hcolon (hback.not_mem hpoint hhex)
    simp [hhigh, hlow, hcolon]

/-- An address has points, colons and digits, and no other characters. -/
theorem Spells.not_mem {cs : List Char} {address : Address} (h : Spells cs address)
    (hpoint : c ≠ '.') (hcolon : c ≠ ':') (hdigit : digitValue? c = none)
    (hhex : hexValue? c = none) : c ∉ cs := by
  cases h with
  | quad h => exact h.not_mem hpoint fun part n hpart ↦ hpart.not_mem hdigit
  | groups h => exact h.not_mem hpoint hcolon hhex

theorem Spells.bare {cs : List Char} {address : Address} (h : Spells cs address) : Bare cs := by
  refine bare_of_forall fun c hc ↦ Bool.eq_false_iff.mpr fun hblank ↦ ?_
  have hpoint : c ≠ '.' := by
    rintro rfl
    cases hblank
  have hcolon : c ≠ ':' := by
    rintro rfl
    cases hblank
  exact h.not_mem hpoint hcolon (digitValue?_of_isBlank hblank) (hexValue?_of_isBlank hblank) hc

end Address

/-! ### Names -/

open Address

theorem toList_trim (name : String) : (trim name).toList = trimBlanks name.toList :=
  String.toList_ofList

theorem bare_canonicalName (name : String) : Bare (canonicalName name).toList := by
  by_cases h : ∃ address, Spells (trim name).toList address
  · obtain ⟨address, haddress⟩ := h
    exact (spells_canonicalName_iff.mpr haddress).bare
  · rw [canonicalName_of_not_spells (not_exists.mp h), toList_trim]
    exact bare_trimBlanks name.toList

theorem trim_canonicalName (name : String) : trim (canonicalName name) = canonicalName name := by
  rw [trim, trimBlanks_of_bare (bare_canonicalName name), String.ofList_toList]

theorem canonicalName_canonicalName (name : String) :
    canonicalName (canonicalName name) = canonicalName name := by
  rw [canonicalName_eq_iff_spells, trim_canonicalName]
  by_cases h : ∃ address, Spells (trim name).toList address
  · obtain ⟨address, haddress⟩ := h
    exact .inr ⟨address, spells_canonicalName_iff.mpr haddress, haddress⟩
  · exact .inl (canonicalName_of_not_spells (not_exists.mp h))

/-- A canonical name is its own canonical name and has no blanks at its ends. The canonical name of
an address of 128 bits is eight groups between colons in upper-case hexadecimal digits without
leading zeros, which denote the same address, and that of a dotted quad is the same four numbers in
ASCII digits without leading zeros. Every other name is canonical but for the blanks around it, and
so is every name with a scope. -/
theorem canonicalName_is_canonical (name : String) :
    canonicalName (canonicalName name) = canonicalName name ∧
      Bare (canonicalName name).toList ∧
      (∀ n : BitVec 128, Denotes (trim name).toList n →
        Denotes (canonicalName name).toList n ∧
          ∃ parts groups, (canonicalName name).toList = [':'].intercalate parts ∧
            parts.length = 8 ∧ List.Forall₂ CanonicalGroup parts groups ∧
            n.toNat = Nat.ofDigits 65536 groups.reverse) ∧
      (∀ numbers, DottedQuad (Octet digitValue?) (trim name).toList numbers →
        DottedQuad StrictOctet (canonicalName name).toList numbers) ∧
      ((∀ n, ¬Denotes (trim name).toList n) →
        (∀ numbers, ¬DottedQuad (Octet digitValue?) (trim name).toList numbers) →
        canonicalName name = trim name) ∧
      ('%' ∈ (trim name).toList → canonicalName name = trim name) := by
  refine ⟨canonicalName_canonicalName name, bare_canonicalName name, ?_, ?_, ?_, ?_⟩
  · rintro n ⟨groups, hgroups, hn⟩
    have hname := canonicalName_of_spells (.groups hgroups)
    have hback : SpellsGroups (canonicalName name).toList groups := by
      cases spells_canonicalName_iff.mpr (.groups hgroups) with
      | groups h => exact h
    refine ⟨⟨groups, hback, hn⟩, groups.map upperHex, groups, ?_, ?_, ?_, hn⟩
    · rw [hname, toList_text_groups]
    · rw [List.length_map, hgroups.length_eq]
    · exact forall₂_canonicalGroup hgroups
  · intro numbers hquad
    rw [canonicalName_of_spells (.quad hquad)]
    exact dottedQuad_text hquad
  · intro hdenotes hquad
    refine canonicalName_of_not_spells ?_
    rintro address (h | h)
    · exact hquad _ h
    · obtain ⟨n, hn, -⟩ := exists_denotes_iff.mpr ⟨_, h, h⟩
      exact hdenotes n hn
  · intro hscope
    refine canonicalName_of_not_spells fun address h ↦ ?_
    exact h.not_mem (by decide) (by decide) (by decide) (by decide) hscope

/-- A shortened address is written out, a dotted quad loses its zeros, and an address with a scope
is left as it is. -/
theorem addresses_made_canonical :
    (Denotes (trim " 2001:db8::1").toList 0x20010db8000000000000000000000001#128 ∧
      Denotes (canonicalName " 2001:db8::1").toList 0x20010db8000000000000000000000001#128) ∧
    (DottedQuad (Octet digitValue?) (trim "010.0.0.1\n").toList [10, 0, 0, 1] ∧
      DottedQuad StrictOctet (canonicalName "010.0.0.1\n").toList [10, 0, 0, 1]) ∧
    '%' ∈ (trim " fe80::1%eth0").toList ∧ canonicalName " fe80::1%eth0" = trim " fe80::1%eth0" := by
  have hspelled : Spells (trim " 2001:db8::1").toList
      (.groups [0x2001, 0xdb8, 0, 0, 0, 0, 0, 1]) := ofText?_eq_some_iff.mp (by decide)
  have hdenotes : Denotes (trim " 2001:db8::1").toList
      0x20010db8000000000000000000000001#128 := by
    cases hspelled with
    | groups h => exact ⟨_, h, by decide⟩
  have hquad : DottedQuad (Octet digitValue?) (trim "010.0.0.1\n").toList [10, 0, 0, 1] :=
    looseQuad?_eq_some_iff.mp (by decide)
  have hscope : '%' ∈ (trim " fe80::1%eth0").toList := by decide
  obtain ⟨-, -, hshortened, -⟩ := canonicalName_is_canonical " 2001:db8::1"
  obtain ⟨-, -, -, hpadded, -⟩ := canonicalName_is_canonical "010.0.0.1\n"
  obtain ⟨-, -, -, -, -, hscoped⟩ := canonicalName_is_canonical " fe80::1%eth0"
  exact ⟨⟨hdenotes, (hshortened _ hdenotes).1⟩, ⟨hquad, hpadded _ hquad⟩, hscope, hscoped hscope⟩

end StagedColumns
