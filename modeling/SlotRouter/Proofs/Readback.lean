import Mathlib.Data.Nat.Digits.Defs
import SlotRouter.Address
import SlotRouter.Proofs.Numerals

/-!
# Texts read back

What is written as text on the wire is read as that text. The UTF-8 octets of characters are read as those
characters (`Utf8.lossy_ofChars`), the decimal form of a number as that number, and a host and a port with a
colon between them as that host and that port, whatever colons the host has of its own
(`Address.splitLast?_colon`, `Address.splitLast?_join`).
-/

namespace SlotRouter

/-! ### Characters -/

namespace Utf8

/-- The octet after the first one that carries the six bits `n`. -/
def tailOctet (n : Nat) : UInt8 := UInt8.ofNat (n + 128)

theorem tailBits_tailOctet {n : Nat} (h : n < 64) : tailBits (tailOctet n) = n := by
  have hall : ∀ n : Fin 64, tailBits (tailOctet n) = n := by decide
  exact hall ⟨n, h⟩

theorem toNat_tailOctet {n : Nat} (h : n < 64) : (tailOctet n).toNat = n + 128 :=
  UInt8.toNat_ofNat_of_lt' (by rw [UInt8.size]; omega)

variable {n acc : Nat} {rest : Bytes}

theorem readTails_tailOctet (h : n < 64) (k : Nat) :
    readTails (k + 1) acc (tailOctet n :: rest) = readTails k (acc * 64 + n) rest := by
  have hrange : 0x80 ≤ tailOctet n ∧ tailOctet n ≤ 0xBF := by
    rw [UInt8.le_iff_toNat_le, UInt8.le_iff_toNat_le, toNat_tailOctet h]
    show 128 ≤ n + 128 ∧ n + 128 ≤ 191
    omega
  rw [readTails, if_pos hrange, tailBits_tailOctet h]

/-- A first octet gives the bits `d`, and promises a second one of `low` to `high` and `tails` more. -/
def Leads (b : UInt8) (d : Nat) (low high : UInt8) (tails : Nat) : Prop :=
  ¬b < 0x80 ∧ leadBits b = d ∧ (lead? b).map (fun l => (l.low, l.high, l.tails)) = some (low, high, tails)

instance (b : UInt8) (d : Nat) (low high : UInt8) (tails : Nat) : Decidable (Leads b d low high tails) :=
  inferInstanceAs (Decidable (_ ∧ _ ∧ _))

theorem Leads.piece {b low high : UInt8} {d tails : Nat} (h : Leads b d low high tails) (hn : n < 64)
    (hlow : low.toNat ≤ n + 128) (hhigh : n + 128 ≤ high.toNat) :
    piece b (tailOctet n :: rest) = readTails tails (d * 64 + n) rest := by
  obtain ⟨hascii, hbits, hpromise⟩ := h
  obtain ⟨l, hl, heq⟩ := Option.map_eq_some_iff.1 hpromise
  obtain ⟨rfl, rfl, rfl⟩ : l.low = low ∧ l.high = high ∧ l.tails = tails := by simpa using heq
  have hrange : l.low ≤ tailOctet n ∧ tailOctet n ≤ l.high := by
    rw [UInt8.le_iff_toNat_le, UInt8.le_iff_toNat_le, toNat_tailOctet hn]
    exact ⟨hlow, hhigh⟩
  rw [Utf8.piece, if_neg hascii, hl]
  show readSecond b l (tailOctet n :: rest) = _
  rw [readSecond, if_pos hrange, hbits, tailBits_tailOctet hn]

theorem leads_two : ∀ d : Fin 32, 2 ≤ d.val → Leads (UInt8.ofNat (d + 192)) d 0x80 0xBF 0 := by decide

theorem leads_three : ∀ d : Fin 16, Leads (UInt8.ofNat (d + 224)) d
    (if d.val = 0 then 0xA0 else 0x80) (if d.val = 13 then 0x9F else 0xBF) 1 := by decide

theorem leads_four : ∀ d : Fin 5, Leads (UInt8.ofNat (d + 240)) d
    (if d.val = 0 then 0x90 else 0x80) (if d.val = 4 then 0x8F else 0xBF) 2 := by decide

variable {v : Nat}

theorem piece_one (h : v < 0x80) : piece (UInt8.ofNat v) rest = .character (Char.ofNat v) rest := by
  have hvalue : (UInt8.ofNat v).toNat = v := UInt8.toNat_ofNat_of_lt' (by rw [UInt8.size]; omega)
  have hascii : UInt8.ofNat v < 0x80 := by
    rw [UInt8.lt_iff_toNat_lt, hvalue]
    exact h
  rw [piece, if_pos hascii, hvalue]

theorem piece_two (h : 0x80 ≤ v) (h' : v < 0x800) :
    piece (UInt8.ofNat (v / 64 % 32 + 192)) (tailOctet (v % 64) :: rest) = .character (Char.ofNat v) rest := by
  have hlead := leads_two ⟨v / 64 % 32, by omega⟩ (by show 2 ≤ v / 64 % 32; omega)
  have hsum : v / 64 % 32 * 64 + v % 64 = v := by omega
  refine (hlead.piece (by omega) (by show 128 ≤ v % 64 + 128; omega) (by show v % 64 + 128 ≤ 191; omega)).trans ?_
  rw [readTails, hsum]

theorem piece_three (h : 0x800 ≤ v) (h' : v < 0xD800 ∨ 0xDFFF < v ∧ v < 0x10000) :
    piece (UInt8.ofNat (v / 4096 % 16 + 224)) (tailOctet (v / 64 % 64) :: tailOctet (v % 64) :: rest) =
      .character (Char.ofNat v) rest := by
  have hlead := leads_three ⟨v / 4096 % 16, by omega⟩
  have hsum : (v / 4096 % 16 * 64 + v / 64 % 64) * 64 + v % 64 = v := by omega
  refine (hlead.piece (by omega) ?_ ?_).trans ?_
  · split_ifs with hzero
    · show 160 ≤ v / 64 % 64 + 128
      dsimp only at hzero
      omega
    · show 128 ≤ v / 64 % 64 + 128
      omega
  · split_ifs with hsurrogate
    · show v / 64 % 64 + 128 ≤ 159
      dsimp only at hsurrogate
      omega
    · show v / 64 % 64 + 128 ≤ 191
      omega
  · rw [readTails_tailOctet (by omega), readTails, hsum]

theorem piece_four (h : 0x10000 ≤ v) (h' : v < 0x110000) :
    piece (UInt8.ofNat (v / 262144 % 8 + 240))
        (tailOctet (v / 4096 % 64) :: tailOctet (v / 64 % 64) :: tailOctet (v % 64) :: rest) =
      .character (Char.ofNat v) rest := by
  have hlead := leads_four ⟨v / 262144 % 8, by omega⟩
  have hsum : ((v / 262144 % 8 * 64 + v / 4096 % 64) * 64 + v / 64 % 64) * 64 + v % 64 = v := by omega
  refine (hlead.piece (by omega) ?_ ?_).trans ?_
  · split_ifs with hzero
    · show 144 ≤ v / 4096 % 64 + 128
      dsimp only at hzero
      omega
    · show 128 ≤ v / 4096 % 64 + 128
      omega
  · split_ifs with hlast
    · show v / 4096 % 64 + 128 ≤ 143
      dsimp only at hlast
      omega
    · show v / 4096 % 64 + 128 ≤ 191
      omega
  · rw [readTails_tailOctet (by omega), readTails_tailOctet (by omega), readTails, hsum]

/-- **The octets of a character are one piece, and it is that character.** -/
theorem piece_encode (c : Char) (rest : Bytes) : ∃ b bs, String.utf8EncodeChar c = b :: bs ∧
    piece b (bs ++ rest) = .character c rest := by
  have hc : Char.ofNat c.val.toNat = c := Char.ofNat_toNat c
  have hvalid : c.val.toNat < 0xD800 ∨ 0xDFFF < c.val.toNat ∧ c.val.toNat < 0x110000 := c.valid
  unfold String.utf8EncodeChar
  dsimp only
  split_ifs with hone htwo hthree
  · exact ⟨_, _, rfl, (piece_one (by omega)).trans (by rw [hc]; rfl)⟩
  · exact ⟨_, _, rfl, (piece_two (by omega) (by omega)).trans (by rw [hc]; rfl)⟩
  · exact ⟨_, _, rfl, (piece_three (by omega) (by omega)).trans (by rw [hc]; rfl)⟩
  · exact ⟨_, _, rfl, (piece_four (by omega) (by omega)).trans (by rw [hc]; rfl)⟩

/-- **Characters are read back from their octets.** -/
theorem lossy_ofChars (cs : List Char) : lossy (Bytes.ofChars cs) = cs := by
  induction cs with
  | nil => exact lossy.eq_1
  | cons c cs ih =>
    obtain ⟨b, bs, hencode, hpiece⟩ := piece_encode c (Bytes.ofChars cs)
    have hsplit : Bytes.ofChars (c :: cs) = b :: (bs ++ Bytes.ofChars cs) := by
      rw [Bytes.ofChars, List.flatMap_cons, hencode]
      rfl
    rw [hsplit, lossy_cons_of_character hpiece, ih]

theorem lossy_ofText (s : String) : lossy (Bytes.ofText s) = s.toList := lossy_ofChars s.toList

end Utf8

/-! ### Numbers -/

namespace Decimal

theorem ofChars_digitChar {d : Nat} (h : d < 10) : Bytes.ofChars [d.digitChar] = [UInt8.ofNat (48 + d)] := by
  have hall : ∀ d : Fin 10, Bytes.ofChars [d.val.digitChar] = [UInt8.ofNat (48 + d)] := by decide
  exact hall ⟨d, h⟩

theorem digitsBefore_eq (n : Nat) (tail : Bytes) : digitsBefore n tail = Bytes.ofChars (Nat.toDigits 10 n) ++ tail := by
  induction n using Nat.strongRecOn generalizing tail with
  | ind n ih =>
    unfold digitsBefore
    split
    · rename_i h
      rw [Nat.toDigits_of_lt_base h, ofChars_digitChar h, Nat.mod_eq_of_lt h]
      rfl
    · rename_i h
      rw [ih (n / 10) (by omega), Nat.toDigits_of_base_le (n := n) (by omega) (by omega), Bytes.ofChars_append,
        ofChars_digitChar (Nat.mod_lt n (by omega)), List.append_assoc]
      rfl

/-- The octets of a number in decimal. -/
theorem ofChars_toString (n : Nat) : Bytes.ofChars (toString n).toList = digits n := by
  have htext : (toString n).toList = Nat.toDigits 10 n := Nat.toList_repr
  rw [htext, digits, digitsBefore_eq, List.append_nil]

/-- The characters of a number in decimal are digits. -/
theorem isDigit_of_mem_toString {n : Nat} {c : Char} (h : c ∈ (toString n).toList) : c.isDigit = true := by
  have htext : (toString n).toList = Nat.toDigits 10 n := Nat.toList_repr
  rw [htext] at h
  exact Nat.isDigit_of_mem_toDigits (b := 10) (by decide) (by decide) h

theorem toString_ne_nil (n : Nat) : (toString n).toList ≠ [] := by
  intro h
  have hdigits := ofChars_toString n
  rw [h] at hdigits
  exact digitsBefore_ne_nil n [] hdigits.symm

theorem colon_not_mem (n : Nat) : ':' ∉ (toString n).toList := by
  intro h
  exact absurd (isDigit_of_mem_toString h) (by decide)

theorem not_blank {n : Nat} {c : Char} (h : c ∈ (toString n).toList) : Text.isBlank c = false := by
  have hdigit := isDigit_of_mem_toString h
  have hrange : 48 ≤ c.toNat ∧ c.toNat ≤ 57 := by
    simpa [Char.isDigit, UInt32.le_iff_toNat_le] using hdigit
  simp only [Text.isBlank, Bool.or_eq_false_iff, Bool.and_eq_false_iff, decide_eq_false_iff_not, beq_eq_false_iff_ne]
  omega

end Decimal

/-! ### Words -/

namespace Text

theorem dropWhile_isBlank {cs : List Char} (h : ∀ c ∈ cs.head?, isBlank c = false) : cs.dropWhile isBlank = cs := by
  cases cs with
  | nil => rfl
  | cons c cs => exact List.dropWhile_cons_of_neg (by simp [h c rfl])

theorem trim_of_ends {cs : List Char} (hfirst : ∀ c ∈ cs.head?, isBlank c = false)
    (hlast : ∀ c ∈ cs.getLast?, isBlank c = false) : trim cs = cs := by
  have hreverse : ∀ c ∈ cs.reverse.head?, isBlank c = false := by rwa [List.head?_reverse]
  rw [trim, trimStartBy, dropWhile_isBlank hfirst, trimEndBy, dropWhile_isBlank hreverse, List.reverse_reverse]

theorem collectWords_append {word : List Char} (h : ∀ c ∈ word, isBlank c = false) (rest read : List Char)
    (found : List (List Char)) :
    collectWords (word ++ rest) read found = collectWords rest (word.reverse ++ read) found := by
  induction word generalizing read with
  | nil => rfl
  | cons c word ih =>
    obtain ⟨hc, hword⟩ := List.forall_mem_cons.1 h
    rw [List.cons_append, collectWords, if_neg (by simp [hc]), ih hword]
    simp

end Text

/-! ### Addresses -/

namespace Address

/-- **The last colon divides.** -/
theorem splitLast?_colon (host : List Char) {port : List Char} (h : ':' ∉ port) :
    splitLast? (host ++ ':' :: port) = some (host, port) := by
  have hport : ∀ c ∈ port.reverse, (c != ':') = true := by
    intro c hc
    rw [bne_iff_ne]
    rintro rfl
    exact h (List.mem_reverse.1 hc)
  have hreverse : (host ++ ':' :: port).reverse = port.reverse ++ ':' :: host.reverse := by simp
  unfold splitLast?
  rw [hreverse, List.takeWhile_append_of_pos hport, List.dropWhile_append_of_pos hport]
  simp

variable {host : List Char}

theorem join_plain (hcolon : ':' ∉ host) (port : Nat) : join host port = host ++ ':' :: (toString port).toList := by
  have hplain : (host.contains ':' && host.head? != some '[') = false := by simp [hcolon]
  rw [join, hplain]
  rfl

theorem join_bracketed (hcolon : ':' ∈ host) (hfirst : host.head? ≠ some '[') (port : Nat) :
    join host port = '[' :: host ++ [']'] ++ ':' :: (toString port).toList := by
  have hbracket : (host.contains ':' && host.head? != some '[') = true := by simp [hcolon, hfirst]
  rw [join, hbracket]
  rfl

/-- A host with colons is in brackets where it stands in an address. -/
theorem splitLast?_join (host : List Char) (port : Nat) : ∃ shown,
    splitLast? (join host port) = some (shown, (toString port).toList) ∧ (':' ∈ shown → shown.head? = some '[') := by
  have hport := Decimal.colon_not_mem port
  by_cases hcolon : ':' ∈ host
  · by_cases hfirst : host.head? = some '['
    · refine ⟨host, ?_, fun _ => hfirst⟩
      have hbracketed : (host.contains ':' && host.head? != some '[') = false := by simp [hfirst]
      rw [join, hbracketed]
      exact splitLast?_colon host hport
    · rw [join_bracketed hcolon hfirst]
      exact ⟨'[' :: host ++ [']'], splitLast?_colon _ hport, fun _ => rfl⟩
  · rw [join_plain hcolon]
    exact ⟨host, splitLast?_colon host hport, fun h => absurd h hcolon⟩

end Address
end SlotRouter
