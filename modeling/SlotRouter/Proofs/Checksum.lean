import Mathlib
import SlotRouter.Slot

/-!
# The checksum is a remainder

The bits of an octet string are the coefficients of a polynomial over the field of two elements. One bit at a time the
division keeps its remainder in a word: a step multiplies by X, brings the next bit in sixteen places up, and
takes the generator away if the word overflows (`Crc16.poly_divideBit`). So `remainder` is what the name
says (`Crc16.poly_remainder`).

An octet at a time comes to the same. A shift is linear in exclusive or (`Crc16.shift_xor`), so eight of them can
be done on the high half of the word, which the table has ready, and on the low half, which only
moves up (`Crc16.step_eq`).

Key definitions: `Crc16.poly`, `Crc16.generator`, `Crc16.message`. Key theorems: `Crc16.poly_remainder`,
`Crc16.checksum_eq_remainder`.
-/

namespace SlotRouter.Crc16

/-! ### Words as polynomials -/

section Division

open Polynomial

/-- The polynomial whose coefficients are the bits of the word. -/
noncomputable def poly (w : UInt16) : (ZMod 2)[X] :=
  ∑ i ∈ Finset.range 16, C ((w.toNat.testBit i).toNat : ZMod 2) * X ^ i

/-- The polynomial that is divided by. -/
noncomputable def generator : (ZMod 2)[X] := X ^ 16 + X ^ 12 + X ^ 5 + 1

/-- The polynomial whose coefficients are the bits, the first one in front. -/
noncomputable def message (bits : List Bool) : (ZMod 2)[X] :=
  bits.foldl (fun p bit => p * X + C (bit.toNat : ZMod 2)) 0

variable {r w : UInt16} {bit : Bool}

theorem testBit_of_le (w : UInt16) {i : ℕ} (h : 16 ≤ i) : w.toNat.testBit i = false :=
  Nat.testBit_lt_two_pow (Nat.lt_of_lt_of_le w.toNat_lt (Nat.pow_le_pow_right (by omega) h))

theorem coeff_poly (w : UInt16) (i : ℕ) : (poly w).coeff i = ((w.toNat.testBit i).toNat : ZMod 2) := by
  rw [poly, finsetSum_coeff]
  simp only [coeff_C_mul, coeff_X_pow, mul_ite, mul_one, mul_zero, Finset.sum_ite_eq, Finset.mem_range]
  split_ifs with h
  · rfl
  · rw [testBit_of_le w (by omega)]
    rfl

theorem degree_poly_lt (w : UInt16) : (poly w).degree < (16 : ℕ) := by
  rw [degree_lt_iff_coeff_zero]
  intro i hi
  rw [coeff_poly, testBit_of_le w hi]
  rfl

theorem poly_injective {a b : UInt16} (h : poly a = poly b) : a = b := by
  apply UInt16.toNat_inj.1
  apply Nat.eq_of_testBit_eq
  intro i
  have hcoeff : ((a.toNat.testBit i).toNat : ZMod 2) = ((b.toNat.testBit i).toNat : ZMod 2) := by
    rw [← coeff_poly, h, coeff_poly]
  cases ha : a.toNat.testBit i <;> cases hb : b.toNat.testBit i <;> simp_all

theorem cast_xor (x y : Bool) : (((x ^^ y).toNat : ℕ) : ZMod 2) = x.toNat + y.toNat := by
  cases x <;> cases y <;> decide

theorem poly_xor (a b : UInt16) : poly (a ^^^ b) = poly a + poly b := by
  ext i
  rw [coeff_add, coeff_poly, coeff_poly, coeff_poly, UInt16.toNat_xor, Nat.testBit_xor, cast_xor]

/-- A word with one bit is a power of X. -/
theorem poly_two_pow {k : ℕ} (h : k < 16) : poly (.ofNat (2 ^ k)) = X ^ k := by
  have hvalue : (UInt16.ofNat (2 ^ k)).toNat = 2 ^ k :=
    UInt16.toNat_ofNat_of_lt' (Nat.pow_lt_pow_right (by omega) h)
  ext i
  rw [coeff_poly, hvalue, Nat.testBit_two_pow, coeff_X_pow]
  by_cases hi : k = i
  · simp [hi]
  · simp [hi, Ne.symm hi]

theorem poly_polynomial : poly polynomial = X ^ 12 + X ^ 5 + 1 := by
  have hbits : polynomial = .ofNat (2 ^ 12) ^^^ .ofNat (2 ^ 5) ^^^ .ofNat (2 ^ 0) := by decide
  rw [hbits, poly_xor, poly_xor, poly_two_pow (by omega), poly_two_pow (by omega), poly_two_pow (by omega), pow_zero]

theorem generator_monic : generator.Monic ∧ generator.natDegree = 16 := by
  have hform : generator = X ^ 16 + (X ^ 12 + X ^ 5 + 1) := by
    rw [generator]
    ring
  have hlow : (X ^ 12 + X ^ 5 + 1 : (ZMod 2)[X]).degree < (16 : ℕ) := by
    rw [← poly_polynomial]
    exact degree_poly_lt polynomial
  rw [hform]
  refine ⟨monic_X_pow_add hlow, ?_⟩
  rw [natDegree_add_eq_left_of_degree_lt (by rwa [degree_X_pow]), natDegree_X_pow]

/-- The bit of a word that a shift puts out. -/
def top (r : UInt16) : Bool := r.toNat.testBit 15

theorem shift_eq (r : UInt16) : shift r = (r <<< 1) ^^^ (if top r then polynomial else 0) := by
  have htop : r &&& 0x8000 = if top r then 0x8000 else 0 := by
    apply UInt16.toNat_inj.1
    have hand : r.toNat &&& 2 ^ 15 = (r.toNat.testBit 15).toNat * 2 ^ 15 := Nat.and_two_pow r.toNat 15
    rw [UInt16.toNat_and, top]
    refine hand.trans ?_
    cases r.toNat.testBit 15 <;> rfl
  rw [shift, htop]
  cases top r with
  | false => simp
  | true => simp

theorem poly_shiftLeft (r : UInt16) : poly (r <<< 1) = X * poly r - C ((top r).toNat : ZMod 2) * X ^ 16 := by
  have hbit (i : ℕ) : (r <<< 1).toNat.testBit i = (decide (i < 16) && (decide (1 ≤ i) && r.toNat.testBit (i - 1))) := by
    have hvalue : (r <<< 1).toNat = r.toNat <<< 1 % 2 ^ 16 := by simp
    rw [hvalue, Nat.testBit_mod_two_pow, Nat.testBit_shiftLeft]
  ext i
  rw [coeff_sub, coeff_C_mul, coeff_X_pow, coeff_poly, hbit]
  cases i with
  | zero => simp
  | succ i =>
    rw [coeff_X_mul, coeff_poly, top]
    rcases Nat.lt_trichotomy i 15 with h | rfl | h
    · simp [show i + 1 < 16 by omega, show i ≠ 15 by omega]
    · simp
    · simp [testBit_of_le r (show 16 ≤ i from h), show i ≠ 15 by omega]

/-- A shift multiplies by X, and takes the generator away if the product overflows. -/
theorem poly_shift (r : UInt16) : poly (shift r) = X * poly r + C ((top r).toNat : ZMod 2) * generator := by
  have htwo : (2 : (ZMod 2)[X]) = 0 := CharTwo.two_eq_zero
  have hlow : poly (if top r then polynomial else 0) = C ((top r).toNat : ZMod 2) * (X ^ 12 + X ^ 5 + 1) := by
    cases top r with
    | false =>
      ext i
      rw [if_neg (by simp), coeff_poly]
      simp
    | true =>
      rw [if_pos rfl, poly_polynomial]
      simp
  rw [shift_eq, poly_xor, poly_shiftLeft, hlow, generator]
  linear_combination (-C ((top r).toNat : ZMod 2) * X ^ 16) * htwo

theorem poly_divideBit (r : UInt16) (bit : Bool) :
    poly (divideBit r bit) = (poly r * X + C (bit.toNat : ZMod 2) * X ^ 16) %ₘ generator := by
  have hbrought : poly (if bit then r ^^^ 0x8000 else r) = poly r + C (bit.toNat : ZMod 2) * X ^ 15 := by
    cases bit with
    | false => simp
    | true =>
      have hpower : poly 0x8000 = X ^ 15 := poly_two_pow (k := 15) (by omega)
      rw [if_pos rfl, poly_xor, hpower]
      simp
  have htwo : (2 : (ZMod 2)[X]) = 0 := CharTwo.two_eq_zero
  obtain ⟨hmonic, hdegree⟩ := generator_monic
  refine (div_modByMonic_unique (C ((top (if bit then r ^^^ 0x8000 else r)).toNat : ZMod 2)) _ hmonic ⟨?_, ?_⟩).2.symm
  · rw [divideBit, poly_shift, hbrought]
    linear_combination (C ((top (if bit then r ^^^ 0x8000 else r)).toNat : ZMod 2) * generator) * htwo
  · rw [degree_eq_natDegree hmonic.ne_zero, hdegree]
    exact degree_poly_lt _

/-- **A bit at a time the message, sixteen places up, is divided by the generator.** -/
theorem poly_foldl_divideBit (bits : List Bool) :
    poly (bits.foldl divideBit 0) = (message bits * X ^ 16) %ₘ generator := by
  obtain ⟨hmonic, -⟩ := generator_monic
  induction bits using List.reverseRecOn with
  | nil =>
    have hzero : poly 0 = 0 := by
      ext i
      rw [coeff_poly]
      simp
    rw [List.foldl_nil, hzero, message, List.foldl_nil, zero_mul, zero_modByMonic]
  | append_singleton bits bit ih =>
    have hmessage : message (bits ++ [bit]) = message bits * X + C (bit.toNat : ZMod 2) := by
      rw [message, List.foldl_append]
      rfl
    have hdvd : generator ∣ message bits * X ^ 16 - message bits * X ^ 16 %ₘ generator := by
      rw [modByMonic_eq_sub_mul_div, sub_sub_cancel]
      exact dvd_mul_right _ _
    rw [List.foldl_append, List.foldl_cons, List.foldl_nil, poly_divideBit, ih, hmessage]
    refine modByMonic_eq_of_dvd_sub hmonic ?_
    have hdiff : message bits * X ^ 16 %ₘ generator * X + C (bit.toNat : ZMod 2) * X ^ 16 -
          (message bits * X + C (bit.toNat : ZMod 2)) * X ^ 16 =
        -X * (message bits * X ^ 16 - message bits * X ^ 16 %ₘ generator) := by ring
    rw [hdiff]
    exact dvd_mul_of_dvd_right hdvd _

/-- **The bits of the remainder are those of the division.** -/
theorem poly_remainder (bs : Bytes) :
    poly (remainder bs) = (message (bs.flatMap bits) * X ^ 16) %ₘ generator := poly_foldl_divideBit _

end Division

/-! ### An octet at a time -/

theorem shift_xor (a b : UInt16) : shift (a ^^^ b) = shift a ^^^ shift b := by
  apply poly_injective
  have htop : top (a ^^^ b) = (top a ^^ top b) := by
    rw [top, UInt16.toNat_xor, Nat.testBit_xor]
    rfl
  rw [poly_xor, poly_shift, poly_shift, poly_shift, poly_xor, htop, cast_xor, map_add]
  ring

theorem shiftOctet_xor (a b : UInt16) : shiftOctet (a ^^^ b) = shiftOctet a ^^^ shiftOctet b := by
  simp only [shiftOctet, shift_xor]

theorem halves (r : UInt16) : (r >>> 8 <<< 8) ^^^ (r <<< 8 >>> 8) = r := by
  apply UInt16.toBitVec_inj.1
  simp only [UInt16.toBitVec_xor, UInt16.toBitVec_shiftLeft, UInt16.toBitVec_shiftRight]
  ext i hi
  by_cases h : i < 8
  · simp [h, show 8 + i < 16 by omega]
  · simp [h, show ¬8 + i < 16 by omega, show 8 + (i - 8) = i by omega, BitVec.getLsbD_eq_getElem hi]

/-- Of the low half of a word no bit is put out. -/
theorem shiftOctet_low (r : UInt16) : shiftOctet (r <<< 8 >>> 8) = r <<< 8 := by
  have hall : ∀ l : Fin 256, shiftOctet (UInt16.ofNat l) = UInt16.ofNat l <<< 8 := by decide +kernel
  have hr : (r <<< 8 >>> 8).toNat < 256 := by
    have hlt := (r <<< 8).toNat_lt
    rw [UInt16.toNat_shiftRight, Nat.shiftRight_eq_div_pow]
    exact Nat.div_lt_of_lt_mul hlt
  have hagain : r <<< 8 >>> 8 <<< 8 = r <<< 8 := by
    apply UInt16.toBitVec_inj.1
    simp only [UInt16.toBitVec_shiftLeft, UInt16.toBitVec_shiftRight]
    ext i hi
    by_cases h : i < 8
    · simp [h]
    · simp [h, show 8 + (i - 8) < 16 by omega]
  have hlow := hall ⟨_, hr⟩
  rwa [UInt16.ofNat_toNat, hagain] at hlow

theorem divideBit_xor (a b : UInt16) (bit : Bool) : divideBit (a ^^^ b) bit = shift a ^^^ divideBit b bit := by
  cases bit with
  | false => exact shift_xor a b
  | true =>
    rw [divideBit, if_pos rfl, UInt16.xor_assoc, shift_xor]
    rfl

/-- The bits of an octet are brought in one by one, or all at once. -/
theorem foldl_divideBit_bits (r : UInt16) (b : UInt8) :
    (bits b).foldl divideBit r = shiftOctet (r ^^^ (b.toUInt16 <<< 8)) := by
  have hall : ∀ b : Fin 256,
      (bits (UInt8.ofNat b)).foldl divideBit 0 = shiftOctet ((UInt8.ofNat b).toUInt16 <<< 8) := by
    decide +kernel
  have hzero := hall ⟨b.toNat, b.toNat_lt⟩
  rw [UInt8.ofNat_toNat] at hzero
  have hsplit : (bits b).foldl divideBit (r ^^^ 0) = shiftOctet r ^^^ (bits b).foldl divideBit 0 := by
    simp only [bits, List.foldl_cons, List.foldl_nil, divideBit_xor]
    rfl
  rw [shiftOctet_xor, ← hzero, ← hsplit, UInt16.xor_zero]

/-- **One look at the table is eight steps of the division.** -/
theorem step_eq (r : UInt16) (b : UInt8) : step r b = (bits b).foldl divideBit r := by
  have htable (i : Fin 256) : table.get i = shiftOctet (UInt16.ofNat i <<< 8) := Vector.get_ofFn _ i
  have hhigh : (r >>> 8).toUInt8.toUInt16 = r >>> 8 := by
    rw [UInt16.toUInt16_toUInt8]
    apply UInt16.toNat_inj.1
    have hlt := r.toNat_lt
    simp only [UInt16.toNat_mod, UInt16.toNat_shiftRight, Nat.shiftRight_eq_div_pow]
    exact Nat.mod_eq_of_lt (Nat.div_lt_of_lt_mul hlt)
  have hentry : UInt16.ofNat ((r >>> 8).toUInt8 ^^^ b).toNat = (r >>> 8) ^^^ b.toUInt16 := by
    rw [UInt16.ofNat_uInt8ToNat, UInt8.toUInt16_xor, hhigh]
  calc step r b = (r <<< 8) ^^^ shiftOctet (((r >>> 8) ^^^ b.toUInt16) <<< 8) := by
        rw [step, htable, hentry]
    _ = shiftOctet (r <<< 8 >>> 8) ^^^ shiftOctet ((r >>> 8 <<< 8) ^^^ (b.toUInt16 <<< 8)) := by
        rw [shiftOctet_low, UInt16.shiftLeft_xor]
    _ = shiftOctet ((r >>> 8 <<< 8) ^^^ (r <<< 8 >>> 8) ^^^ (b.toUInt16 <<< 8)) := by
        rw [← shiftOctet_xor]
        congr 1
        ac_rfl
    _ = (bits b).foldl divideBit r := by rw [halves, foldl_divideBit_bits]

/-- **The checksum is the remainder**, on octet strings of every length. -/
theorem checksum_eq_remainder (bs : Bytes) : checksum bs = remainder bs := by
  have hrun (r : UInt16) : bs.foldl step r = (bs.flatMap bits).foldl divideBit r := by
    induction bs generalizing r with
    | nil => rfl
    | cons b bs ih => rw [List.foldl_cons, ih, step_eq, List.flatMap_cons, List.foldl_append]
  exact hrun 0

end SlotRouter.Crc16
