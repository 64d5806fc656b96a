import SlotRouter.Bytes

/-!
# Words and numbers in a text

The Unicode property White_Space, and what a reader of free text builds on it: trimming, and splitting into words.
The words are the maximal runs of characters that are not blank. The parts between separators, other than words, may
be empty, and there is one more of them than there are separators.

Whole numbers stand in decimal, as octets. A reader takes the whole string: an optional sign and at
least one digit, any number of leading zeros. `natural?_digits` says that reading undoes writing.
-/

namespace SlotRouter

/-! ### Words and parts -/

namespace Text

/-- The characters with the Unicode property White_Space. -/
def isBlank (c : Char) : Bool :=
  let n := c.toNat
  (9 ≤ n && n ≤ 13) || n == 0x20 || n == 0x85 || n == 0xA0 || n == 0x1680
    || (0x2000 ≤ n && n ≤ 0x200A) || n == 0x2028 || n == 0x2029 || n == 0x202F || n == 0x205F
    || n == 0x3000

/-- What is left after the leading characters that satisfy `p`. -/
def trimStartBy (p : Char → Bool) (cs : List Char) : List Char := cs.dropWhile p

/-- What is left before the trailing characters that satisfy `p`. -/
def trimEndBy (p : Char → Bool) (cs : List Char) : List Char := (cs.reverse.dropWhile p).reverse

/-- The text without the blanks at its two ends. -/
def trim (cs : List Char) : List Char := trimEndBy isBlank (trimStartBy isBlank cs)

/-- The words of a text read so far, in reverse: `word` is the one being read, reversed. -/
def closeWord (word : List Char) (found : List (List Char)) : List (List Char) :=
  if word.isEmpty then found else word.reverse :: found

/-- Reads words from the left; `word` and `found` are reversed. -/
def collectWords : List Char → List Char → List (List Char) → List (List Char)
  | [], word, found => closeWord word found
  | c :: cs, word, found =>
    if isBlank c then collectWords cs [] (closeWord word found)
    else collectWords cs (c :: word) found

/-- The maximal runs of characters that are not blank, in order. -/
def words (cs : List Char) : List (List Char) := (collectWords cs [] []).reverse

/-- The parts of a text between separators. -/
def parts (sep : Char) : List Char → List (List Char)
  | [] => [[]]
  | c :: cs =>
    if c = sep then [] :: parts sep cs
    else match parts sep cs with
      | part :: rest => (c :: part) :: rest
      | [] => [[c]]

end Text

/-! ### Decimal numbers -/

namespace Decimal

/-- The value of an ASCII digit. -/
def digit? (b : UInt8) : Option Nat :=
  if 48 ≤ b ∧ b ≤ 57 then some (b.toNat - 48) else none

/-- Reads on in a number whose digits so far have the value `acc`. -/
def continueWith : Nat → Bytes → Option Nat
  | acc, [] => some acc
  | acc, b :: bs =>
    match digit? b with
    | some d => continueWith (acc * 10 + d) bs
    | none => none

/-- The number that one or more digits stand for. -/
def natural? (bs : Bytes) : Option Nat :=
  if bs.isEmpty then none else continueWith 0 bs

/-- The number that digits after an optional sign stand for. -/
def signed? : Bytes → Option Int
  | 43 :: bs => (natural? bs).map Int.ofNat
  | 45 :: bs => (natural? bs).map fun n => -Int.ofNat n
  | bs => (natural? bs).map Int.ofNat

/-- A signed number that fits 64 bits. -/
def int64? (bs : Bytes) : Option Int64 :=
  match signed? bs with
  | some n => if Int64.minValue.toInt ≤ n ∧ n ≤ Int64.maxValue.toInt then some (Int64.ofInt n) else none
  | none => none

/-- A number below `bound`, after an optional plus sign. -/
def below? (bound : Nat) (bs : Bytes) : Option Nat :=
  let body := match bs with
    | 43 :: rest => rest
    | _ => bs
  match natural? body with
  | some n => if n < bound then some n else none
  | none => none

/-- The digits of `n`, in front of the octets `tail`. -/
def digitsBefore (n : Nat) (tail : Bytes) : Bytes :=
  let d := UInt8.ofNat (48 + n % 10)
  if n < 10 then d :: tail else digitsBefore (n / 10) (d :: tail)

/-- The digits of `n`, without leading zeros. -/
def digits (n : Nat) : Bytes := digitsBefore n []

/-- The decimal form of a whole number, with a minus sign if it is negative. -/
def ofInt : Int → Bytes
  | .ofNat n => digits n
  | .negSucc n => 45 :: digits (n + 1)

theorem digit?_ofNat {d : Nat} (h : d < 10) : digit? (UInt8.ofNat (48 + d)) = some d := by
  have : d = 0 ∨ d = 1 ∨ d = 2 ∨ d = 3 ∨ d = 4 ∨ d = 5 ∨ d = 6 ∨ d = 7 ∨ d = 8 ∨ d = 9 := by omega
  rcases this with rfl | rfl | rfl | rfl | rfl | rfl | rfl | rfl | rfl | rfl <;> rfl

theorem digitsBefore_ne_nil (n : Nat) (tail : Bytes) : digitsBefore n tail ≠ [] := by
  induction n using Nat.strongRecOn generalizing tail with
  | ind n ih =>
    unfold digitsBefore
    split
    · simp
    · exact ih (n / 10) (by omega) _

/-- Reading the digits of `n` from the start, and then `tail`, goes on in `tail` with the value `n`. -/
theorem continueWith_digitsBefore (n : Nat) (tail : Bytes) :
    continueWith 0 (digitsBefore n tail) = continueWith n tail := by
  induction n using Nat.strongRecOn generalizing tail with
  | ind n ih =>
    unfold digitsBefore
    split
    · rename_i h
      simp only [continueWith, Nat.mod_eq_of_lt h, digit?_ofNat h, Nat.zero_mul, Nat.zero_add]
    · rw [ih (n / 10) (by omega)]
      simp only [continueWith, digit?_ofNat (Nat.mod_lt n (by omega : 0 < 10))]
      congr 1
      omega

/-- Reading undoes writing. -/
theorem natural?_digits (n : Nat) : natural? (digits n) = some n := by
  simp [natural?, digits, digitsBefore_ne_nil, continueWith_digitsBefore, continueWith]

end Decimal
end SlotRouter
