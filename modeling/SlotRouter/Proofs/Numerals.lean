import Mathlib.Data.Nat.Digits.Defs
import Mathlib.Tactic.Ring
import Mathlib.Tactic.SplitIfs
import SlotRouter.Text.Words

/-!
# What a numeral stands for

A numeral is a sign, or none, and one or more digits, the most significant first; leading zeros do not
matter. The readers accept exactly these, with the value that the digits have by their places
(`natural?_eq_some_iff`, `signed?_eq_some_iff`), and for the last of them the value has to fit 64 bits
(`int64?_eq_some_iff`). What is written is among what is read (`int64?_digits`, `int64?_ofInt`).

Key definitions: `Decimal.Digits`, `Decimal.Signed`.
-/

namespace SlotRouter.Decimal

/-- One or more digits, the most significant first, and their value. -/
structure Digits (bs : Bytes) (n : Nat) : Prop where
  ne_nil : bs ≠ []
  digits : ∀ b ∈ bs, 48 ≤ b ∧ b ≤ 57
  value : n = Nat.ofDigits 10 (bs.reverse.map fun b => b.toNat - 48)

/-- Digits after a sign, or without one, and the number that they stand for. -/
inductive Signed : Bytes → Int → Prop where
  | plain {bs : Bytes} {n : Nat} (h : Digits bs n) : Signed bs n
  | plus {bs : Bytes} {n : Nat} (h : Digits bs n) : Signed (43 :: bs) n
  | minus {bs : Bytes} {n : Nat} (h : Digits bs n) : Signed (45 :: bs) (-n)

variable {bs : Bytes} {b : UInt8} {n : Nat}

theorem digit?_eq_some_iff {d : Nat} : digit? b = some d ↔ (48 ≤ b ∧ b ≤ 57) ∧ d = b.toNat - 48 := by
  unfold digit?
  split_ifs with h
  · simp [h, eq_comm]
  · simp [h]

/-- Reading on multiplies what has been read by as many tens as there are digits to come. -/
theorem continueWith_eq_some_iff {acc : Nat} :
    continueWith acc bs = some n ↔ (∀ b ∈ bs, 48 ≤ b ∧ b ≤ 57) ∧
      n = acc * 10 ^ bs.length + Nat.ofDigits 10 (bs.reverse.map fun b => b.toNat - 48) := by
  induction bs generalizing acc with
  | nil => simp [continueWith, eq_comm]
  | cons b bs ih =>
    have hplaces : Nat.ofDigits 10 ((b :: bs).reverse.map fun b => b.toNat - 48) =
        Nat.ofDigits 10 (bs.reverse.map fun b => b.toNat - 48) + 10 ^ bs.length * (b.toNat - 48) := by
      rw [List.reverse_cons, List.map_append, Nat.ofDigits_append]
      simp
    unfold continueWith
    split
    · rename_i d hd
      obtain ⟨hdigit, rfl⟩ := digit?_eq_some_iff.1 hd
      have hsum : acc * 10 ^ (b :: bs).length + Nat.ofDigits 10 ((b :: bs).reverse.map fun b => b.toNat - 48) =
          (acc * 10 + (b.toNat - 48)) * 10 ^ bs.length +
            Nat.ofDigits 10 (bs.reverse.map fun b => b.toNat - 48) := by
        rw [hplaces, List.length_cons]
        ring
      rw [ih, hsum, List.forall_mem_cons]
      simp only [hdigit, true_and]
    · rename_i hnone
      have hnot : ¬(48 ≤ b ∧ b ≤ 57) := fun hdigit => by
        rw [digit?_eq_some_iff.2 ⟨hdigit, rfl⟩] at hnone
        cases hnone
      rw [List.forall_mem_cons]
      simp only [hnot, false_and, reduceCtorEq]

/-- **A natural number is read from one or more digits, and from nothing else.** -/
theorem natural?_eq_some_iff : natural? bs = some n ↔ Digits bs n := by
  unfold natural?
  split_ifs with hempty
  · rw [List.isEmpty_iff] at hempty
    exact ⟨nofun, fun h => absurd hempty h.ne_nil⟩
  · rw [List.isEmpty_iff] at hempty
    rw [continueWith_eq_some_iff, Nat.zero_mul, Nat.zero_add]
    exact ⟨fun h => ⟨hempty, h.1, h.2⟩, fun h => ⟨h.digits, h.value⟩⟩

/-- No sign is a digit. -/
theorem Digits.not_sign (h : Digits (b :: bs) n) : b ≠ 43 ∧ b ≠ 45 := by
  have hdigit := h.digits b List.mem_cons_self
  constructor
  · rintro rfl
    exact absurd hdigit.1 (by decide)
  · rintro rfl
    exact absurd hdigit.1 (by decide)

/-- **A whole number is read from digits after a sign or without one, and from nothing else.** -/
theorem signed?_eq_some_iff {n : Int} : signed? bs = some n ↔ Signed bs n := by
  constructor
  · intro h
    unfold signed? at h
    split at h
    · obtain ⟨m, hm, rfl⟩ := Option.map_eq_some_iff.1 h
      exact .plus (natural?_eq_some_iff.1 hm)
    · obtain ⟨m, hm, rfl⟩ := Option.map_eq_some_iff.1 h
      exact .minus (natural?_eq_some_iff.1 hm)
    · obtain ⟨m, hm, rfl⟩ := Option.map_eq_some_iff.1 h
      exact .plain (natural?_eq_some_iff.1 hm)
  · intro h
    cases h with
    | plus h =>
      rw [signed?.eq_1, natural?_eq_some_iff.2 h]
      rfl
    | minus h =>
      rw [signed?.eq_2, natural?_eq_some_iff.2 h]
      rfl
    | @plain _ m h =>
      cases bs with
      | nil => exact absurd rfl h.ne_nil
      | cons b bs =>
        obtain ⟨hplus, hminus⟩ := h.not_sign
        rw [signed?.eq_3 _ (fun rest heq => hplus (List.cons.inj heq).1)
          (fun rest heq => hminus (List.cons.inj heq).1), natural?_eq_some_iff.2 h]
        rfl

/-- **A number of 64 bits is read from its numerals, and from nothing else.** -/
theorem int64?_eq_some_iff {n : Int64} : int64? bs = some n ↔ Signed bs n.toInt := by
  rw [← signed?_eq_some_iff]
  unfold int64?
  split
  · rename_i m hm
    rw [hm, Option.some.injEq]
    split_ifs with hfits
    · have htoInt : (Int64.ofInt m).toInt = m :=
        Int64.toInt_ofInt_of_le hfits.1 (Int.lt_of_le_of_lt hfits.2 (by decide))
      rw [Option.some.injEq, ← Int64.toInt_inj, htoInt]
    · refine ⟨nofun, fun heq => absurd ?_ hfits⟩
      rw [heq]
      exact ⟨n.minValue_le_toInt, n.toInt_le⟩
  · rename_i hnone
    rw [hnone]
    simp

/-- The digits that are written for a number stand for it. -/
theorem Digits.written (n : Nat) : Digits (Decimal.digits n) n := natural?_eq_some_iff.1 (natural?_digits n)

/-- What is written for a number of 64 bits is read as that number. -/
theorem int64?_ofInt (n : Int64) : int64? (ofInt n.toInt) = some n := by
  rw [int64?_eq_some_iff]
  rcases hn : n.toInt with m | m
  · exact .plain (.written m)
  · exact .minus (.written (m + 1))

theorem int64?_digits (h : n < 2 ^ 63) : int64? (Decimal.digits n) = some (Int64.ofNat n) := by
  have htoInt : (Int64.ofNat n).toInt = n := Int64.toInt_ofNat_of_lt h
  rw [int64?_eq_some_iff, htoInt]
  exact .plain (.written n)

end SlotRouter.Decimal
