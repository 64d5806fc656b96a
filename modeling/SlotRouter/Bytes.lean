/-!
# Byte strings

What travels on a connection: keys, values, command arguments and wire forms are lists of octets.
A text stands on the wire as its UTF-8 octets (`Bytes.ofText`).

Octets are read as text in two ways. `Utf8.lossy` never fails: each maximal part that begins like a
character and breaks off becomes one U+FFFD. `Utf8.decode?` refuses such parts.
-/

namespace SlotRouter

/-! ### Octets -/

/-- A string of octets. -/
abbrev Bytes := List UInt8

namespace Bytes

/-- The UTF-8 octets of a list of characters. -/
def ofChars (cs : List Char) : Bytes := cs.flatMap String.utf8EncodeChar

/-- The UTF-8 octets of a text. -/
def ofText (s : String) : Bytes := ofChars s.toList

/-- The two octets that end a line on the wire. -/
def crlf : Bytes := [13, 10]

theorem ofChars_append (a b : List Char) : ofChars (a ++ b) = ofChars a ++ ofChars b := by
  simp [ofChars]

/-- An ASCII letter `a`–`z` becomes its capital; every other octet is kept. -/
def upperOctet (b : UInt8) : UInt8 := if 97 ≤ b ∧ b ≤ 122 then b - 32 else b

/-- The octets with ASCII letters in capitals. -/
def asciiUpper (bs : Bytes) : Bytes := bs.map upperOctet

end Bytes

/-! ### Octets as text -/

namespace Utf8

/-- What a first octet promises: the range of the second octet and the number of octets after that. -/
structure Lead where
  low : UInt8
  high : UInt8
  tails : Nat

/-- The promise of a first octet of a character of two to four octets, by the table of well-formed sequences. -/
def lead? (b : UInt8) : Option Lead :=
  if 0xC2 ≤ b ∧ b ≤ 0xDF then some ⟨0x80, 0xBF, 0⟩
  else if b = 0xE0 then some ⟨0xA0, 0xBF, 1⟩
  else if b = 0xED then some ⟨0x80, 0x9F, 1⟩
  else if 0xE1 ≤ b ∧ b ≤ 0xEF then some ⟨0x80, 0xBF, 1⟩
  else if b = 0xF0 then some ⟨0x90, 0xBF, 2⟩
  else if 0xF1 ≤ b ∧ b ≤ 0xF3 then some ⟨0x80, 0xBF, 2⟩
  else if b = 0xF4 then some ⟨0x80, 0x8F, 2⟩
  else none

/-- The bits that a first octet of a character of several octets gives to its number. -/
def leadBits (b : UInt8) : Nat :=
  if b < 0xE0 then (b &&& 0x1F).toNat else if b < 0xF0 then (b &&& 0x0F).toNat else (b &&& 0x07).toNat

/-- The bits that a later octet gives. -/
def tailBits (b : UInt8) : Nat := (b &&& 0x3F).toNat

/-- One step of reading: a character or an ill-formed part, and what is left after it. -/
inductive Piece where
  | character (c : Char) (rest : Bytes)
  | illFormed (rest : Bytes)

/-- What a piece leaves to read. -/
def Piece.rest : Piece → Bytes
  | .character _ rest | .illFormed rest => rest

/-- Reads `n` octets of the range 80–BF into the number `acc`. -/
def readTails : Nat → Nat → Bytes → Piece
  | 0, acc, bs => .character (Char.ofNat acc) bs
  | _ + 1, _, [] => .illFormed []
  | n + 1, acc, b :: bs =>
    if 0x80 ≤ b ∧ b ≤ 0xBF then readTails n (acc * 64 + tailBits b) bs else .illFormed (b :: bs)

/-- Reads on after a first octet `b` with the promise `l`. -/
def readSecond (b : UInt8) (l : Lead) : Bytes → Piece
  | [] => .illFormed []
  | s :: bs =>
    if l.low ≤ s ∧ s ≤ l.high then readTails l.tails (leadBits b * 64 + tailBits s) bs
    else .illFormed (s :: bs)

/-- The first piece of the octets `b :: bs`. -/
def piece (b : UInt8) (bs : Bytes) : Piece :=
  if b < 0x80 then .character (Char.ofNat b.toNat) bs
  else match lead? b with
    | none => .illFormed bs
    | some l => readSecond b l bs

theorem rest_readTails_length (n acc : Nat) (bs : Bytes) :
    (readTails n acc bs).rest.length ≤ bs.length := by
  fun_induction readTails n acc bs with
  | case1 => simp [Piece.rest]
  | case2 => simp [Piece.rest]
  | case3 n acc b bs _ ih => exact Nat.le_trans ih (by simp)
  | case4 => simp [Piece.rest]

theorem rest_readSecond_length (b : UInt8) (l : Lead) (bs : Bytes) :
    (readSecond b l bs).rest.length ≤ bs.length := by
  fun_cases readSecond b l bs with
  | case1 => simp [Piece.rest]
  | case2 s bs _ => exact Nat.le_trans (rest_readTails_length _ _ bs) (by simp)
  | case3 => simp [Piece.rest]

/-- A piece takes at least one octet. -/
theorem rest_piece_length (b : UInt8) (bs : Bytes) : (piece b bs).rest.length ≤ bs.length := by
  fun_cases piece b bs with
  | case1 => simp [Piece.rest]
  | case2 => simp [Piece.rest]
  | case3 _ l => exact rest_readSecond_length b l bs

/-- The text of the octets, each ill-formed part read as one U+FFFD. -/
def lossy : Bytes → List Char
  | [] => []
  | b :: bs =>
    have := rest_piece_length b bs
    match _h : piece b bs with
    | .character c rest => c :: lossy rest
    | .illFormed rest => '\uFFFD' :: lossy rest
termination_by bs => bs.length
decreasing_by
  all_goals
    rw [_h] at this
    exact Nat.lt_succ_of_le this

/-- The text of well-formed octets. -/
def decode? : Bytes → Option (List Char)
  | [] => some []
  | b :: bs =>
    have := rest_piece_length b bs
    match _h : piece b bs with
    | .character c rest => (decode? rest).map (c :: ·)
    | .illFormed _ => none
termination_by bs => bs.length
decreasing_by
  rw [_h] at this
  exact Nat.lt_succ_of_le this

theorem lossy_cons_of_character {b : UInt8} {bs rest : Bytes} {c : Char}
    (h : piece b bs = .character c rest) : lossy (b :: bs) = c :: lossy rest := by
  rw [lossy]
  split <;> simp_all

/-- The octets as a text, ill-formed parts replaced. -/
def lossyText (bs : Bytes) : String := String.ofList (lossy bs)

end Utf8
end SlotRouter
