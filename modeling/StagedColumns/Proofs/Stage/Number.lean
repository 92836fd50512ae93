import Mathlib.Data.Int.Bitwise
import StagedColumns.Proofs.Stage.Reader

/-!
# What a number is read as

Every integer has its bits in two's complement, whatever its size and its sign. Four places of them
say what a stage is, two for each representation; the other bits do not matter. A number gives a
stage exactly if something is written, one representation is read, and that one is written
(`exists_ofFlags_iff`). The number of the stage is then what the four places hold
(`ofFlags_eq_ok_iff_flags`), so no two stages have the same number.
-/

set_option autoImplicit false

namespace StagedColumns

/-! ### Bits of integers -/

/-- The lowest bits of an integer are those of its remainder. -/
theorem testBit_toNat_emod (n : ℤ) {width place : ℕ} (h : place < width) :
    (n % 2 ^ width).toNat.testBit place = n.testBit place := by
  have hpos : 0 < 2 ^ width := Nat.two_pow_pos width
  have hwidth : (2 : ℤ) ^ width = (2 ^ width : ℕ) := by norm_cast
  cases n with
  | ofNat m =>
    have hlow : (Int.ofNat m % 2 ^ width).toNat = m % 2 ^ width := by
      rw [hwidth]
      exact Int.toNat_natCast (m % 2 ^ width)
    rw [hlow, Nat.testBit_mod_two_pow, decide_eq_true h, Bool.true_and]
    rfl
  | negSucc m =>
    have hlt : m % 2 ^ width < 2 ^ width := Nat.mod_lt m hpos
    have hlow : (Int.negSucc m % 2 ^ width).toNat = 2 ^ width - (m % 2 ^ width + 1) := by
      rw [hwidth, Int.negSucc_emod m (by exact_mod_cast hpos), ← Int.natCast_mod]
      omega
    rw [hlow, Nat.testBit_two_pow_sub_succ hlt, Nat.testBit_mod_two_pow, decide_eq_true h,
      Bool.true_and, Bool.true_and]
    rfl

theorem testBit_zero_eq_bodd (n : ℤ) : n.testBit 0 = n.bodd := by
  conv_lhs => rw [← n.bit_decomp, Int.testBit_bit_zero]

theorem testBit_div2 (n : ℤ) (place : ℕ) : n.div2.testBit place = n.testBit (place + 1) := by
  conv_rhs => rw [← n.bit_decomp, Int.testBit_bit_succ]

/-- Of the bits of an integer, those that a mask has are kept, from the lowest one on. -/
theorem land_bit_right (n mask : ℤ) (b : Bool) :
    n.land (.bit b mask) = .bit (n.testBit 0 && b) (n.div2.land mask) := by
  rw [testBit_zero_eq_bodd]
  conv_lhs => rw [← n.bit_decomp, Int.land_bit]

theorem land_zero_right (n : ℤ) : n.land 0 = 0 := by
  cases n with
  | ofNat m => exact congrArg Int.ofNat (Nat.and_zero m)
  | negSucc m => exact congrArg Int.ofNat (by simp [Nat.ldiff])

namespace StageBits

theorem ofInt_eq (n : ℤ) :
    ofInt n = ⟨n.testBit 0, n.testBit 1, n.testBit 4, n.testBit 5⟩ := by
  have hbit {place : ℕ} (h : place < 6) : (n % 64).toNat.testBit place = n.testBit place :=
    testBit_toNat_emod n h
  simp only [ofInt]
  rw [hbit (by decide), hbit (by decide), hbit (by decide), hbit (by decide)]

/-- The stage bits of a number are the number itself at the four places, and nothing elsewhere. -/
theorem toNat_ofInt (n : ℤ) : ((ofInt n).toNat : ℤ) = n.land 0x33 := by
  have hmask : (0x33 : ℤ) =
      .bit true (.bit true (.bit false (.bit false (.bit true (.bit true 0))))) := rfl
  rw [ofInt_eq, hmask]
  simp only [land_bit_right, testBit_div2, land_zero_right, Bool.and_true, Bool.and_false]
  cases n.testBit 0 <;> cases n.testBit 1 <;> cases n.testBit 4 <;> cases n.testBit 5 <;> rfl

theorem ofInt_toNat (bits : StageBits) : ofInt bits.toNat = bits := by
  obtain ⟨_ | _, _ | _, _ | _, _ | _⟩ := bits <;> rfl

theorem toNat_injective {bits other : StageBits} (h : bits.toNat = other.toNat) : bits = other := by
  rw [← ofInt_toNat bits, h, ofInt_toNat]

end StageBits

/-! ### Stages of numbers -/

/-- The place of the bit that says that the representation is written. -/
def Schema.writePlace : Schema → ℕ
  | .old => 0
  | .new => 4

/-- The place of the bit that says that the representation is read. -/
def Schema.readPlace : Schema → ℕ
  | .old => 1
  | .new => 5

/-- Some mode fills just the representations that are to be filled, unless there are none. -/
theorem Writing.exists_fills {filled : Schema → Bool} (h : ∃ schema, filled schema = true) :
    ∃ writing : Writing, ∀ schema, writing.fills schema = filled schema := by
  obtain ⟨schema, hschema⟩ := h
  cases hold : filled .old <;> cases hnew : filled .new
  · cases schema <;> simp_all
  · exact ⟨.new, fun | .old => hold.symm | .new => hnew.symm⟩
  · exact ⟨.old, fun | .old => hold.symm | .new => hnew.symm⟩
  · exact ⟨.both, fun | .old => hold.symm | .new => hnew.symm⟩

namespace Stage

/-- In two's complement the number has a write bit, exactly one read bit, and the write bit of the
representation that is read. -/
structure IsNumber (n : ℤ) : Prop where
  writes : ∃ schema : Schema, n.testBit schema.writePlace = true
  reads : ∃! schema : Schema, n.testBit schema.readPlace = true
  reads_written : ∀ schema : Schema, n.testBit schema.readPlace = true →
    n.testBit schema.writePlace = true

section Numbers

variable {n : ℤ} {s : Stage}

theorem ofFlags_eq_ok_iff_places :
    ofFlags n = .ok s ↔ ∀ schema : Schema, n.testBit schema.writePlace = s.writing.fills schema ∧
      n.testBit schema.readPlace = decide (s.reading = schema) := by
  rw [ofFlags_eq_ok_iff, StageBits.ofInt_eq, bits, StageBits.mk.injEq]
  constructor
  · rintro ⟨hwriteOld, hreadOld, hwriteNew, hreadNew⟩ schema
    cases schema with
    | old => exact ⟨hwriteOld, hreadOld⟩
    | new => exact ⟨hwriteNew, hreadNew⟩
  · intro h
    exact ⟨(h .old).1, (h .old).2, (h .new).1, (h .new).2⟩

theorem isNumber_of_ofFlags (h : ofFlags n = .ok s) : IsNumber n := by
  have hplaces := ofFlags_eq_ok_iff_places.mp h
  have hreads (schema : Schema) : n.testBit schema.readPlace = true ↔ s.reading = schema := by
    rw [(hplaces schema).2, decide_eq_true_iff]
  have hwritten : n.testBit s.reading.writePlace = true := (hplaces _).1.trans s.reads_written
  refine ⟨⟨s.reading, hwritten⟩, ⟨s.reading, (hreads _).mpr rfl, fun other hother ↦ ?_⟩, ?_⟩
  · exact ((hreads other).mp hother).symm
  · intro schema hschema
    rwa [← (hreads schema).mp hschema]

theorem IsNumber.exists_ofFlags (h : IsNumber n) : ∃ s, ofFlags n = .ok s := by
  obtain ⟨reading, hreading, honly⟩ := h.reads
  obtain ⟨writing, hwriting⟩ := Writing.exists_fills h.writes
  have hwritten : writing.fills reading = true :=
    (hwriting reading).trans (h.reads_written reading hreading)
  refine ⟨⟨writing, reading, hwritten⟩, ofFlags_eq_ok_iff_places.mpr fun schema ↦ ?_⟩
  refine ⟨(hwriting schema).symm, Bool.eq_iff_iff.mpr ?_⟩
  rw [decide_eq_true_iff]
  constructor
  · exact fun hschema ↦ (honly schema hschema).symm
  · rintro rfl
    exact hreading

theorem exists_ofFlags_iff : (∃ s, ofFlags n = .ok s) ↔ IsNumber n :=
  ⟨fun ⟨_, h⟩ ↦ isNumber_of_ofFlags h, fun h ↦ h.exists_ofFlags⟩

/-- A number gives the stage whose number it is at the four places. -/
theorem ofFlags_eq_ok_iff_flags : ofFlags n = .ok s ↔ (s.flags : ℤ) = n.land 0x33 := by
  rw [ofFlags_eq_ok_iff, ← StageBits.toNat_ofInt, Nat.cast_inj, flags]
  constructor
  · intro h
    rw [h]
  · exact fun h ↦ (StageBits.toNat_injective h).symm

theorem ofFlags_flags (s : Stage) : ofFlags s.flags = .ok s :=
  ofFlags_eq_ok_iff.mpr (StageBits.ofInt_toNat s.bits)

end Numbers

end Stage

end StagedColumns
