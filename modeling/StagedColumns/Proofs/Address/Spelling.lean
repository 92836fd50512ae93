import Mathlib.Data.List.Forall2
import StagedColumns.Address
import StagedColumns.Proofs.Text.Digit
import StagedColumns.Proofs.Text.Split

/-!
# Spellings of addresses

`Spells` is the grammar of addresses, stated by what a text consists of: a dotted quad of decimal
numbers, or eight groups between colons, where a strict dotted quad may stand for the last two
groups and two adjacent colons for groups of zeros. A scope, which would follow a percent sign, has
no place in it. A text is read as an address exactly where it spells it (`ofText?_eq_some_iff`), so
no text spells two addresses.
-/

set_option autoImplicit false

namespace StagedColumns.Address

open Text

/-! ### The grammar -/

/-- A number up to 255 in one to three decimal digits, which have the values given. -/
structure Octet (value? : Char → Option Nat) (cs : List Char) (n : Nat) : Prop where
  length_pos : 0 < cs.length
  length_le : cs.length ≤ 3
  numeral : IsNumeral value? 10 cs n
  le : n ≤ 255

/-- An octet in ASCII digits without leading zeros. -/
structure StrictOctet (cs : List Char) (n : Nat) : Prop extends Octet asciiDigitValue? cs n where
  no_leading_zero : cs.head? = some '0' → cs = ['0']

/-- A group of one to four hexadecimal digits. -/
structure Group (cs : List Char) (n : Nat) : Prop where
  length_pos : 0 < cs.length
  length_le : cs.length ≤ 4
  numeral : IsNumeral hexValue? 16 cs n

/-- Four numbers between dots, in spellings of the kind given. -/
def DottedQuad (octet : List Char → Nat → Prop) (cs : List Char) (numbers : List Nat) : Prop :=
  ∃ parts, cs = ['.'].intercalate parts ∧ parts.length = 4 ∧ List.Forall₂ octet parts numbers

/-- Groups, of which a strict dotted quad may spell the last two. -/
inductive GroupsThenQuad : List (List Char) → List Nat → Prop
  | none : GroupsThenQuad [] []
  | quad {cs : List Char} {a b c d : Nat} (h : DottedQuad StrictOctet cs [a, b, c, d]) :
      GroupsThenQuad [cs] [a * 256 + b, c * 256 + d]
  | cons {cs : List Char} {n : Nat} {parts : List (List Char)} {groups : List Nat}
      (hfirst : Group cs n) (hrest : GroupsThenQuad parts groups) :
      GroupsThenQuad (cs :: parts) (n :: groups)

/-- Eight groups between colons, in full or shortened by two adjacent colons, which stand for at
least one group of zero. -/
inductive SpellsGroups : List Char → List Nat → Prop
  | full {parts : List (List Char)} {groups : List Nat} (hparts : GroupsThenQuad parts groups)
      (hlength : groups.length = 8) : SpellsGroups ([':'].intercalate parts) groups
  | shortened {front back : List (List Char)} {high low : List Nat}
      (hfront : List.Forall₂ Group front high) (hback : GroupsThenQuad back low)
      (hlength : high.length + low.length < 8) :
      SpellsGroups ([':'].intercalate front ++ ([':', ':'] ++ [':'].intercalate back))
        (high ++ List.replicate (8 - (high.length + low.length)) 0 ++ low)

/-- The text spells the address. -/
inductive Spells : List Char → Address → Prop
  | quad {cs : List Char} {numbers : List Nat} (h : DottedQuad (Octet digitValue?) cs numbers) :
      Spells cs (.quad numbers)
  | groups {cs : List Char} {parts : List Nat} (h : SpellsGroups cs parts) :
      Spells cs (.groups parts)

/-! ### Numbers -/

theorem Octet.not_mem {value? : Char → Option Nat} {cs : List Char} {n : Nat}
    (h : Octet value? cs n) {c : Char} (hc : value? c = none) : c ∉ cs :=
  h.numeral.not_mem hc

theorem Group.not_mem {cs : List Char} {n : Nat} (h : Group cs n) {c : Char}
    (hc : hexValue? c = none) : c ∉ cs :=
  h.numeral.not_mem hc

theorem octet_iff {value? : Char → Option Nat} {cs : List Char} (hpos : 0 < cs.length)
    (hle : cs.length ≤ 3) {n : Nat} :
    ((readDigits value? 10 cs).filter fun n ↦ n ≤ 255) = some n ↔ Octet value? cs n := by
  rw [Option.filter_eq_some_iff, readDigits_eq_some_iff, decide_eq_true_iff]
  exact ⟨fun h ↦ ⟨hpos, hle, h.1, h.2⟩, fun h ↦ ⟨h.numeral, h.le⟩⟩

theorem empty_or_long_iff {cs : List Char} {most : Nat} :
    cs = [] ∨ most < cs.length ↔ ¬(0 < cs.length ∧ cs.length ≤ most) := by
  rw [← List.length_eq_zero_iff]
  omega

theorem looseOctet?_eq_some_iff {cs : List Char} {n : Nat} :
    looseOctet? cs = some n ↔ Octet digitValue? cs n := by
  rw [looseOctet?, if_congr empty_or_long_iff rfl rfl, ite_not]
  by_cases hlength : 0 < cs.length ∧ cs.length ≤ 3
  · rw [if_pos hlength, octet_iff hlength.1 hlength.2]
  · rw [if_neg hlength]
    exact ⟨nofun, fun h ↦ absurd ⟨h.length_pos, h.length_le⟩ hlength⟩

theorem strictOctet?_eq_some_iff {cs : List Char} {n : Nat} :
    strictOctet? cs = some n ↔ StrictOctet cs n := by
  have hrefused : cs = [] ∨ 3 < cs.length ∨ cs.head? = some '0' ∧ cs ≠ ['0'] ↔
      ¬((0 < cs.length ∧ cs.length ≤ 3) ∧ (cs.head? = some '0' → cs = ['0'])) := by
    rw [← or_assoc, empty_or_long_iff]
    exact (not_and_or.trans (or_congr_right Classical.not_imp)).symm
  rw [strictOctet?, if_congr hrefused rfl rfl, ite_not]
  by_cases hstrict : (0 < cs.length ∧ cs.length ≤ 3) ∧ (cs.head? = some '0' → cs = ['0'])
  · rw [if_pos hstrict, octet_iff hstrict.1.1 hstrict.1.2]
    exact ⟨fun h ↦ ⟨h, hstrict.2⟩, StrictOctet.toOctet⟩
  · rw [if_neg hstrict]
    exact ⟨nofun, fun h ↦ absurd ⟨⟨h.length_pos, h.length_le⟩, h.no_leading_zero⟩ hstrict⟩

theorem group?_eq_some_iff {cs : List Char} {n : Nat} : group? cs = some n ↔ Group cs n := by
  rw [group?, if_congr empty_or_long_iff rfl rfl, ite_not]
  by_cases hlength : 0 < cs.length ∧ cs.length ≤ 4
  · rw [if_pos hlength, readDigits_eq_some_iff]
    exact ⟨fun h ↦ ⟨hlength.1, hlength.2, h⟩, Group.numeral⟩
  · rw [if_neg hlength]
    exact ⟨nofun, fun h ↦ absurd ⟨h.length_pos, h.length_le⟩ hlength⟩

theorem readAll_eq_some_iff {value? : List Char → Option Nat} {spells : List Char → Nat → Prop}
    (hvalue : ∀ cs n, value? cs = some n ↔ spells cs n) {parts : List (List Char)}
    {numbers : List Nat} :
    readAll value? parts = some numbers ↔ List.Forall₂ spells parts numbers := by
  induction parts generalizing numbers with
  | nil =>
    rw [List.forall₂_nil_left_iff, readAll, Option.some_inj, eq_comm]
  | cons part rest ih =>
    rw [readAll, List.forall₂_cons_left_iff]
    constructor
    · intro h
      obtain ⟨n, hn, h⟩ := Option.bind_eq_some_iff.mp h
      obtain ⟨others, hothers, h⟩ := Option.bind_eq_some_iff.mp h
      exact ⟨n, others, (hvalue part n).mp hn, ih.mp hothers, (Option.some.inj h).symm⟩
    · rintro ⟨n, others, hn, hothers, rfl⟩
      rw [(hvalue part n).mpr hn, ih.mpr hothers]
      rfl

theorem forall_mem_of_forall₂ {α β : Type} {related : α → β → Prop} {such : α → Prop}
    {as : List α} {bs : List β} (h : List.Forall₂ related as bs)
    (hsuch : ∀ a b, related a b → such a) : ∀ a ∈ as, such a :=
  ((List.forall₂_and_left _ _).mp (h.imp fun a b hab ↦ ⟨hsuch a b hab, hab⟩)).1

theorem quadOf?_eq_some_iff {value? : List Char → Option Nat} {octet : List Char → Nat → Prop}
    (hvalue : ∀ cs n, value? cs = some n ↔ octet cs n)
    (hfree : ∀ cs n, octet cs n → '.' ∉ cs) {cs : List Char} {numbers : List Nat} :
    quadOf? value? cs = some numbers ↔ DottedQuad octet cs numbers := by
  have hquad : quadOf? value? cs = some numbers ↔ (splitOn '.' cs).length = 4 ∧
      List.Forall₂ octet (splitOn '.' cs) numbers := by
    simp only [quadOf?, ← readAll_eq_some_iff hvalue]
    split <;> simp [*]
  rw [hquad, splitOn_eq]
  constructor
  · rintro ⟨hlength, hall⟩
    exact ⟨_, (List.intercalate_splitOn '.').symm, hlength, hall⟩
  · rintro ⟨parts, rfl, hlength, hall⟩
    have hparts : ∀ part ∈ parts, '.' ∉ part := forall_mem_of_forall₂ hall hfree
    have hne : parts ≠ [] := by
      rintro rfl
      cases hlength
    rw [List.splitOn_intercalate '.' hparts hne]
    exact ⟨hlength, hall⟩

theorem DottedQuad.length_eq {octet : List Char → Nat → Prop} {cs : List Char} {numbers : List Nat}
    (h : DottedQuad octet cs numbers) : numbers.length = 4 := by
  obtain ⟨parts, -, hlength, hall⟩ := h
  rw [← hall.length_eq, hlength]

theorem DottedQuad.mem_point {octet : List Char → Nat → Prop} {cs : List Char} {numbers : List Nat}
    (h : DottedQuad octet cs numbers) : '.' ∈ cs := by
  obtain ⟨parts, rfl, hlength, -⟩ := h
  match parts, hlength with
  | [first, second, third, fourth], _ => simp [List.intercalate_cons_cons]

/-- A character other than a point that is in none of the four parts is not in the text. -/
theorem DottedQuad.not_mem {octet : List Char → Nat → Prop} {cs : List Char} {numbers : List Nat}
    (h : DottedQuad octet cs numbers) {c : Char} (hpoint : c ≠ '.')
    (hoctet : ∀ part n, octet part n → c ∉ part) : c ∉ cs := by
  obtain ⟨parts, rfl, hlength, hall⟩ := h
  have hparts := forall_mem_of_forall₂ hall hoctet
  match parts, hlength with
  | [first, second, third, fourth], _ =>
    simp only [List.forall_mem_cons] at hparts
    simp [List.intercalate_cons_cons, hparts, hpoint]

theorem looseQuad?_eq_some_iff {cs : List Char} {numbers : List Nat} :
    quadOf? looseOctet? cs = some numbers ↔ DottedQuad (Octet digitValue?) cs numbers :=
  quadOf?_eq_some_iff (fun _ _ ↦ looseOctet?_eq_some_iff) fun _ _ h ↦ h.not_mem (by decide)

theorem strictQuad?_eq_some_iff {cs : List Char} {numbers : List Nat} :
    quadOf? strictOctet? cs = some numbers ↔ DottedQuad StrictOctet cs numbers :=
  quadOf?_eq_some_iff (fun _ _ ↦ strictOctet?_eq_some_iff) fun _ _ h ↦ h.not_mem (by decide)

/-! ### Groups -/

theorem groupsThenQuad?_eq_some_iff {parts : List (List Char)} {groups : List Nat} :
    groupsThenQuad? parts = some groups ↔ GroupsThenQuad parts groups := by
  constructor
  · intro h
    fun_induction groupsThenQuad? parts generalizing groups with
    | case1 =>
      cases h
      exact .none
    | case2 last hpoint =>
      obtain ⟨numbers, hnumbers, h⟩ := Option.bind_eq_some_iff.mp h
      have hquad := strictQuad?_eq_some_iff.mp hnumbers
      match numbers, hquad.length_eq with
      | [a, b, c, d], _ =>
        cases h
        exact .quad hquad
    | case3 last hpoint =>
      obtain ⟨n, hn, rfl⟩ := Option.map_eq_some_iff.mp h
      exact .cons (group?_eq_some_iff.mp hn) .none
    | case4 part rest hrest ih =>
      obtain ⟨n, hn, h⟩ := Option.bind_eq_some_iff.mp h
      obtain ⟨others, hothers, h⟩ := Option.bind_eq_some_iff.mp h
      cases h
      exact .cons (group?_eq_some_iff.mp hn) (ih hothers)
  · intro h
    induction h with
    | none => rfl
    | quad hquad =>
      have hpoint := List.contains_iff_mem.mpr hquad.mem_point
      rw [groupsThenQuad?, if_pos hpoint, strictQuad?_eq_some_iff.mpr hquad]
      rfl
    | @cons cs n parts groups hfirst hrest ih =>
      have hgroup := group?_eq_some_iff.mpr hfirst
      cases parts with
      | nil =>
        cases hrest
        have hpoint : ¬cs.contains '.' :=
          mt List.contains_iff_mem.mp (hfirst.not_mem (by decide))
        rw [groupsThenQuad?, if_neg hpoint, hgroup]
        rfl
      | cons next others =>
        rw [groupsThenQuad?, hgroup, ih]
        · rfl
        · nofun

/-- The parts of groups are not empty and have no colon. -/
theorem GroupsThenQuad.ne_nil_and_not_mem {parts : List (List Char)} {groups : List Nat}
    (h : GroupsThenQuad parts groups) : ∀ part ∈ parts, part ≠ [] ∧ ':' ∉ part := by
  induction h with
  | none => exact nofun
  | quad hquad =>
    refine List.forall_mem_singleton.mpr ⟨List.ne_nil_of_mem hquad.mem_point, ?_⟩
    exact hquad.not_mem (by decide) fun part n hpart ↦ hpart.not_mem (by decide)
  | cons hfirst _ ih =>
    exact List.forall_mem_cons.mpr
      ⟨⟨List.ne_nil_of_length_pos hfirst.length_pos, hfirst.not_mem (by decide)⟩, ih⟩

/-- Groups alone are groups of which a quad may spell the last two. -/
theorem GroupsThenQuad.of_forall₂ {parts : List (List Char)} {groups : List Nat}
    (h : List.Forall₂ Group parts groups) : GroupsThenQuad parts groups := by
  induction h with
  | nil => exact .none
  | cons hfirst _ ih => exact .cons hfirst ih

theorem intercalate_colonParts (cs : List Char) : [':'].intercalate (colonParts cs) = cs := by
  unfold colonParts
  split
  · simp [*]
  · rw [splitOn_eq, List.intercalate_splitOn]

theorem colonParts_intercalate {parts : List (List Char)}
    (hparts : ∀ part ∈ parts, part ≠ [] ∧ ':' ∉ part) :
    colonParts ([':'].intercalate parts) = parts := by
  cases parts with
  | nil => rfl
  | cons part rest =>
    have hne : [':'].intercalate (part :: rest) ≠ [] := by
      obtain ⟨x, part, rfl⟩ := List.exists_cons_of_ne_nil (hparts part List.mem_cons_self).1
      cases rest <;> simp [List.intercalate_cons_cons]
    rw [colonParts, if_neg hne, splitOn_eq,
      List.splitOn_intercalate ':' (fun part hpart ↦ (hparts part hpart).2) (by simp)]

/-- A text is read as eight groups exactly where it spells them. -/
theorem groups?_eq_some_iff {cs : List Char} {groups : List Nat} :
    groups? cs = some groups ↔ SpellsGroups cs groups := by
  constructor
  · intro h
    unfold groups? at h
    split at h
    · obtain ⟨h, hlength⟩ := Option.filter_eq_some_iff.mp h
      have hfull := SpellsGroups.full (groupsThenQuad?_eq_some_iff.mp h)
        (of_decide_eq_true hlength)
      rwa [intercalate_colonParts] at hfull
    · next front back hcut =>
      obtain ⟨high, hhigh, h⟩ := Option.bind_eq_some_iff.mp h
      obtain ⟨low, hlow, h⟩ := Option.bind_eq_some_iff.mp h
      by_cases hlength : high.length + low.length < 8
      · have hshortened := SpellsGroups.shortened
          ((readAll_eq_some_iff fun _ _ ↦ group?_eq_some_iff).mp hhigh)
          (groupsThenQuad?_eq_some_iff.mp hlow) hlength
        rw [if_pos hlength] at h
        rw [intercalate_colonParts, intercalate_colonParts, ← List.append_assoc,
          ← eq_append_of_cutAt? hcut, Option.some.inj h] at hshortened
        exact hshortened
      · rw [if_neg hlength] at h
        cases h
  · intro h
    cases h with
    | @full parts groups hparts hlength =>
      have hfree := hparts.ne_nil_and_not_mem
      have hcut : cutAt? [':', ':'] ([':'].intercalate parts) = none := by
        simpa [cutAt?] using cutAt?_intercalate_append hfree []
      rw [groups?, hcut]
      change Option.filter _ _ = _
      rw [colonParts_intercalate hfree, groupsThenQuad?_eq_some_iff.mpr hparts]
      simp [hlength]
    | @shortened front back high low hfront hback hlength =>
      have hfrontFree := (GroupsThenQuad.of_forall₂ hfront).ne_nil_and_not_mem
      have hcut : cutAt? [':', ':']
          ([':'].intercalate front ++ ([':', ':'] ++ [':'].intercalate back)) =
            some ([':'].intercalate front, [':'].intercalate back) := by
        rw [cutAt?_intercalate_append hfrontFree]
        simp [cutAt?, List.isPrefixOf?]
      rw [groups?, hcut]
      change Option.bind _ _ = _
      rw [colonParts_intercalate hfrontFree, colonParts_intercalate hback.ne_nil_and_not_mem,
        (readAll_eq_some_iff fun _ _ ↦ group?_eq_some_iff).mpr hfront,
        groupsThenQuad?_eq_some_iff.mpr hback]
      exact if_pos hlength

/-! ### Addresses -/

theorem SpellsGroups.mem_colon {cs : List Char} {groups : List Nat} (h : SpellsGroups cs groups) :
    ':' ∈ cs := by
  cases h with
  | shortened => simp
  | full hparts hlength =>
    -- eight groups have at least seven parts
    cases hparts with
    | none => cases hlength
    | quad => cases hlength
    | cons _ hrest =>
      cases hrest with
      | none => cases hlength
      | quad => simp [List.intercalate_cons_cons]
      | cons => simp [List.intercalate_cons_cons]

/-- A text is read as an address exactly where it spells it. -/
theorem ofText?_eq_some_iff {cs : List Char} {address : Address} :
    ofText? cs = some address ↔ Spells cs address := by
  unfold ofText?
  cases hquad : quadOf? looseOctet? cs with
  | some numbers =>
    have hspelled := looseQuad?_eq_some_iff.mp hquad
    constructor
    · intro h
      cases h
      exact .quad hspelled
    · rintro (h | h)
      · rw [Option.some.inj (hquad.symm.trans (looseQuad?_eq_some_iff.mpr h))]
      · refine absurd h.mem_colon (hspelled.not_mem (by decide) fun part n hpart ↦ ?_)
        exact hpart.not_mem (by decide)
  | none =>
    constructor
    · intro h
      obtain ⟨parts, hparts, rfl⟩ := Option.map_eq_some_iff.mp h
      exact .groups (groups?_eq_some_iff.mp hparts)
    · rintro (h | h)
      · rw [looseQuad?_eq_some_iff.mpr h] at hquad
        cases hquad
      · exact congrArg (Option.map groups) (groups?_eq_some_iff.mpr h)

/-- A text spells one address. -/
theorem Spells.unique {cs : List Char} {address other : Address} (h : Spells cs address)
    (hother : Spells cs other) : address = other :=
  Option.some.inj ((ofText?_eq_some_iff.mpr h).symm.trans (ofText?_eq_some_iff.mpr hother))

end StagedColumns.Address
