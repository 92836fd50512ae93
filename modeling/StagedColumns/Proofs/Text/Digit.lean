import Mathlib.Data.List.Basic
import Mathlib.Data.List.Induction
import Mathlib.Data.Nat.Digits.Defs
import StagedColumns.Text.Digit

/-!
# Numerals

`IsNumeral` says of characters that they are the digits of a number, the highest one first. Reading
digits gives a number exactly where they are its numeral, and gives back every number from the
digits that it is written with.
-/

set_option autoImplicit false

namespace StagedColumns.Text

variable {value? : Char → Option Nat} {base : Nat}

/-- The characters are digits of the number in the base, the highest one first. -/
def IsNumeral (value? : Char → Option Nat) (base : Nat) (cs : List Char) (n : Nat) : Prop :=
  ∃ digits : List Nat, cs.map value? = digits.map some ∧ n = Nat.ofDigits base digits.reverse

theorem IsNumeral.not_mem {cs : List Char} {n : Nat} (h : IsNumeral value? base cs n) {c : Char}
    (hc : value? c = none) : c ∉ cs := by
  intro hmem
  obtain ⟨digits, hdigits, -⟩ := h
  have hnone : none ∈ digits.map some := hdigits ▸ hc ▸ List.mem_map_of_mem hmem
  simp at hnone

theorem IsNumeral.lt {cs : List Char} {n : Nat} (h : IsNumeral value? base cs n) (hbase : 1 < base)
    (hvalue : ∀ c digit, value? c = some digit → digit < base) : n < base ^ cs.length := by
  obtain ⟨digits, hdigits, rfl⟩ := h
  have hlength : cs.length = digits.reverse.length := by
    simpa using congrArg List.length hdigits
  rw [hlength]
  refine Nat.ofDigits_lt_base_pow_length hbase fun digit hdigit ↦ ?_
  have hmem : some digit ∈ cs.map value? :=
    hdigits ▸ List.mem_map_of_mem (List.mem_reverse.mp hdigit)
  obtain ⟨c, -, hc⟩ := List.mem_map.mp hmem
  exact hvalue c digit hc

theorem hexValue?_lt {c : Char} {digit : Nat} (h : hexValue? c = some digit) : digit < 16 := by
  have hzero : '0'.toNat = 48 ∧ '9'.toNat = 57 := ⟨rfl, rfl⟩
  have hlower : 'a'.toNat = 97 ∧ 'f'.toNat = 102 := ⟨rfl, rfl⟩
  have hupper : 'A'.toNat = 65 ∧ 'F'.toNat = 70 := ⟨rfl, rfl⟩
  unfold hexValue? at h
  split at h
  · cases h
    omega
  · split at h
    · cases h
      omega
    · split at h
      · cases h
        omega
      · cases h

theorem readDigits_concat (cs : List Char) (c : Char) :
    readDigits value? base (cs ++ [c]) =
      (readDigits value? base cs).bind fun total ↦ (value? c).map (total * base + ·) := by
  rw [readDigits, List.foldl_append]
  change (readDigits value? base cs).bind _ = _
  refine congrArg _ (funext fun total ↦ ?_)
  cases value? c <;> rfl

/-- Digits are read as the number of which they are the numeral. -/
theorem readDigits_eq_some_iff {cs : List Char} {n : Nat} :
    readDigits value? base cs = some n ↔ IsNumeral value? base cs n := by
  -- the last character is the lowest digit, which is added last
  induction cs using List.reverseRecOn generalizing n with
  | nil =>
    constructor
    · intro h
      cases h
      exact ⟨[], rfl, rfl⟩
    · rintro ⟨digits, hdigits, rfl⟩
      rw [List.map_nil, eq_comm, List.map_eq_nil_iff] at hdigits
      rw [hdigits]
      rfl
  | append_singleton cs c ih =>
    rw [readDigits_concat]
    constructor
    · intro h
      obtain ⟨total, htotal, h⟩ := Option.bind_eq_some_iff.mp h
      obtain ⟨digit, hdigit, rfl⟩ := Option.map_eq_some_iff.mp h
      obtain ⟨digits, hdigits, rfl⟩ := ih.mp htotal
      refine ⟨digits ++ [digit], by simp [hdigits, hdigit], ?_⟩
      rw [List.reverse_append, List.reverse_singleton, List.singleton_append, Nat.ofDigits_cons]
      ring
    · rintro ⟨digits, hdigits, rfl⟩
      rcases List.eq_nil_or_concat digits with rfl | ⟨digits, digit, rfl⟩
      · simp at hdigits
      · rw [List.concat_eq_append, List.map_append, List.map_append] at hdigits
        obtain ⟨hfront, hlast⟩ := List.append_inj' hdigits rfl
        rw [ih.mpr ⟨digits, hfront, rfl⟩, List.singleton_inj.mp hlast, List.concat_eq_append,
          List.reverse_append, List.reverse_singleton, List.singleton_append, Nat.ofDigits_cons]
        refine congrArg some ?_
        ring

/-- A number is read back from its digits, also in another case or script. -/
theorem readDigits_toDigits (hbase : 1 < base) (shown : Char → Char)
    (hvalue : ∀ digit < base, value? (shown digit.digitChar) = some digit) (n : Nat) :
    readDigits value? base ((Nat.toDigits base n).map shown) = some n := by
  induction n using Nat.strongRecOn with
  | ind n ih =>
    by_cases hn : n < base
    · rw [Nat.toDigits_of_lt_base hn]
      simp [readDigits, hvalue n hn]
    · have hle : base ≤ n := Nat.le_of_not_lt hn
      have hlower : n / base < n := Nat.div_lt_self (by omega) hbase
      have hdigit := hvalue (n % base) (Nat.mod_lt n (by omega))
      rw [Nat.toDigits_of_base_le hbase hle, List.map_append, List.map_singleton,
        readDigits_concat, ih _ hlower, hdigit]
      exact congrArg some (Nat.div_add_mod' n base)

/-- A number is written in digits of its base. -/
theorem exists_digit_of_mem_toDigits (hbase : 1 < base) {n : Nat} {c : Char}
    (hc : c ∈ Nat.toDigits base n) : ∃ digit < base, c = digit.digitChar := by
  induction n using Nat.strongRecOn with
  | ind n ih =>
    by_cases hn : n < base
    · rw [Nat.toDigits_of_lt_base hn, List.mem_singleton] at hc
      exact ⟨n, hn, hc⟩
    · have hle : base ≤ n := Nat.le_of_not_lt hn
      rw [Nat.toDigits_of_base_le hbase hle, List.mem_append, List.mem_singleton] at hc
      rcases hc with hc | hc
      · exact ih _ (Nat.div_lt_self (by omega) hbase) hc
      · exact ⟨n % base, Nat.mod_lt n (by omega), hc⟩

/-- Only zero is written with a zero in front. -/
theorem eq_zero_of_head?_toDigits (hbase : 1 < base) {n : Nat}
    (h : (Nat.toDigits base n).head? = some '0') : n = 0 := by
  induction n using Nat.strongRecOn with
  | ind n ih =>
    by_cases hn : n < base
    · rw [Nat.toDigits_of_lt_base hn, List.head?_cons, Option.some_inj] at h
      exact Nat.digitChar_eq_zero.mp h
    · have hle : base ≤ n := Nat.le_of_not_lt hn
      rw [Nat.toDigits_of_base_le hbase hle,
        List.head?_append_of_ne_nil _ Nat.toDigits_ne_nil] at h
      have hhigh := ih _ (Nat.div_lt_self (by omega) hbase) h
      exact absurd hhigh (Nat.div_pos hle (by omega)).ne'

end StagedColumns.Text
