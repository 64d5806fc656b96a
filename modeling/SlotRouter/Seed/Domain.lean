import SlotRouter.Bytes
import SlotRouter.Seed.Ip
import SlotRouter.Text.Words

/-!
# Domain names

A domain name is a text without blanks, controls and delimiters. It may be written with percent signs, and in
capitals. A label that starts with `xn--` must be the ASCII form of a label beyond ASCII (`Punycode.decode?`).

Such a form has first the ASCII characters of the label, then, after a hyphen, where the others go. They are inserted
in ascending order, and each insertion is written as one number: how many places of all texts it passes over. The
digits of a number have thresholds that follow the size of the numbers before.
-/

namespace SlotRouter

/-! ### Labels beyond ASCII -/

namespace Punycode

/-- The value of a digit: letters first, then decimal digits. -/
def digit? (c : Char) : Option Nat :=
  if 'a' ≤ c ∧ c ≤ 'z' then some (c.toNat - 'a'.toNat)
  else if '0' ≤ c ∧ c ≤ '9' then some (c.toNat - '0'.toNat + 26)
  else none

/-- A digit below the threshold is the last of its number. -/
def threshold (place bias : Nat) : Nat := min 26 (max 1 (place - bias))

/-- A number with the least digit in front, added to `acc`, and what follows it. -/
def number? (bias : Nat) : (place weight acc : Nat) → List Char → Option (Nat × List Char)
  | _, _, _, [] => none
  | place, weight, acc, c :: cs =>
    match digit? c with
    | none => none
    | some d =>
      let t := threshold place bias
      if d < t then some (acc + d * weight, cs)
      else number? bias (place + 36) (weight * (36 - t)) (acc + d * weight) cs

/-- The bias for numbers of about the size of `delta`. -/
def biasFrom (delta bias : Nat) : Nat :=
  if 455 < delta then biasFrom (delta / 35) (bias + 36) else bias + 36 * delta / (delta + 38)

/-- The bias after the number `delta` in a text that has now `length` characters. -/
def nextBias (delta length : Nat) (first : Bool) : Nat :=
  let delta := if first then delta / 700 else delta / 2
  biasFrom (delta + delta / length) 0

/-- Inserts characters into `text` as the digits say: the next has the number `code` at least, and place `place` at
least if it has just that number. Every insertion takes a digit, and `fuel` is the number of digits. -/
def insertAll? (fuel code place bias : Nat) (text : List Char) (digits : List Char) : Option (List Char) :=
  match fuel, digits with
  | _, [] => some text
  | 0, _ => none
  | fuel + 1, digits =>
    match number? bias 36 1 place digits with
    | none => none
    | some (total, rest) =>
      let length := text.length + 1
      let code := code + total / length
      if code.isValidChar then
        insertAll? fuel code (total % length + 1) (nextBias (total - place) length (place = 0))
          (text.insertIdx (total % length) (Char.ofNat code)) rest
      else none

/-- The text that the ASCII characters stand for. -/
def decode? (cs : List Char) : Option (List Char) :=
  let digits := (cs.reverse.takeWhile (· != '-')).reverse
  match cs.reverse.dropWhile (· != '-') with
  | [] => insertAll? cs.length 128 0 72 [] cs
  | [_] => none
  | _ :: ascii => insertAll? digits.length 128 0 72 ascii.reverse digits

end Punycode

/-! ### Names -/

namespace Domain

/-- The octet of two hexadecimal digits. -/
def octet? (high low : UInt8) : Option UInt8 :=
  match Ipv6.hexDigit? (Char.ofNat high.toNat), Ipv6.hexDigit? (Char.ofNat low.toNat) with
  | some h, some l => some (UInt8.ofNat (h * 16 + l))
  | _, _ => none

/-- The octets, each percent sign with two hexadecimal digits read as one. -/
def unescaped : Bytes → Bytes
  | 37 :: high :: low :: rest =>
    match octet? high low with
    | some b => b :: unescaped rest
    | none => 37 :: unescaped (high :: low :: rest)
  | b :: rest => b :: unescaped rest
  | [] => []

/-- A character as it stands in a domain name, if it may. -/
def character? (c : Char) : Option Char :=
  if c.toNat < 0x80 then
    if c ≤ ' ' ∨ c = '\x7F' ∨ "%#/:<>?@[]^|\\".toList.contains c then none else some c.toLower
  else if c.toNat < 0xA0 ∨ Text.isBlank c ∨ c = '\uFFFD' then none
  else some c

/-- Whether the text is a label beyond ASCII in the form that it has in a domain name. -/
def isBeyondAscii (label : List Char) : Bool :=
  label.any (fun c => c.toNat ≥ 0x80) && label.all fun c => character? c == some c

/-- Whether a label that claims to be an ASCII form is one. -/
def isLabel (label : List Char) : Bool :=
  match "xn--".toList.isPrefixOf? label with
  | none => true
  | some ascii =>
    match Punycode.decode? ascii with
    | some decoded => isBeyondAscii decoded
    | none => false

/-- The domain name that the text stands for. -/
def ofChars? (cs : List Char) : Option (List Char) := do
  let text ← Utf8.decode? (unescaped (Bytes.ofChars cs))
  let domain ← text.mapM character?
  if (Text.parts '.' domain).all isLabel then some domain else none

end Domain
end SlotRouter
