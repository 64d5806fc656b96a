import SlotRouter.Text.Words

/-!
# IP addresses as text

An IPv6 address has eight groups of 16 bits. In its text one run of zero groups may be left out, written `::`, and the
last two groups may be written as an IPv4 address. `Ipv6.toChars` is the canonical text: the first longest run of two
or more zero groups is left out, and an IPv4-mapped address ends in its IPv4 form.

A domain name whose last part is a number stands for an IPv4 address. It has up to four parts, each a number in
decimal, in octal after `0` or in hexadecimal after `0x`; the last one fills the octets that the others leave. A
point at the end counts for nothing.
-/

namespace SlotRouter

/-! ### IPv6 -/

namespace Ipv6

/-- Eight groups of 16 bits. -/
abbrev Groups := Vector UInt16 8

/-- The value of a hexadecimal digit. -/
def hexDigit? (c : Char) : Option Nat :=
  if '0' ≤ c ∧ c ≤ '9' then some (c.toNat - '0'.toNat)
  else if 'a' ≤ c ∧ c ≤ 'f' then some (c.toNat - 'a'.toNat + 10)
  else if 'A' ≤ c ∧ c ≤ 'F' then some (c.toNat - 'A'.toNat + 10)
  else none

/-- A group of one to four hexadecimal digits. -/
def group? (part : List Char) : Option UInt16 :=
  if part.isEmpty || part.length > 4 then none
  else (part.mapM hexDigit?).map fun ds => UInt16.ofNat (ds.foldl (fun n d => n * 16 + d) 0)

/-- A decimal number up to 255 without leading zeros. -/
def byte? (part : List Char) : Option Nat :=
  if part.isEmpty || part.length > 3 || !part.all (fun c => '0' ≤ c ∧ c ≤ '9') then none
  else if part.length > 1 && part.head? == some '0' then none
  else
    let n := part.foldl (fun n c => n * 10 + (c.toNat - '0'.toNat)) 0
    if n ≤ 255 then some n else none

/-- The two groups that an IPv4 address stands for. -/
def ipv4? (part : List Char) : Option (List UInt16) :=
  match (Text.parts '.' part).mapM byte? with
  | some [a, b, c, d] => some [UInt16.ofNat (a * 256 + b), UInt16.ofNat (c * 256 + d)]
  | _ => none

/-- Groups between colons, of which the last may be an IPv4 address. -/
def groups? : List (List Char) → Option (List UInt16)
  | [] => some []
  | [part] =>
    match group? part with
    | some g => some [g]
    | none => ipv4? part
  | part :: parts => do
    let g ← group? part
    let gs ← groups? parts
    some (g :: gs)

/-- The groups of a text that may be empty. -/
def side? (cs : List Char) : Option (List UInt16) :=
  if cs.isEmpty then some [] else groups? (Text.parts ':' cs)

/-- The text before and after the first `::`; `before` is reversed. -/
def cutGap? : List Char → List Char → Option (List Char × List Char)
  | before, ':' :: ':' :: rest => some (before.reverse, rest)
  | before, c :: rest => cutGap? (c :: before) rest
  | _, [] => none

/-- The list as eight groups. -/
def ofList? (gs : List UInt16) : Option Groups :=
  if h : gs.length = 8 then some ⟨gs.toArray, by simpa using h⟩ else none

/-- The address that the text stands for. -/
def ofChars? (cs : List Char) : Option Groups :=
  match cutGap? [] cs with
  | none => side? cs >>= ofList?
  | some (left, right) => do
    if left.contains '.' then none
    let l ← side? left
    let r ← side? right
    if l.length + r.length > 7 then none
    ofList? (l ++ List.replicate (8 - l.length - r.length) 0 ++ r)

/-- The length of the run of zeros at the front. -/
def zeroRun (gs : List UInt16) : Nat := (gs.takeWhile (· == 0)).length

/-- The start and the length of the first longest run of zeros, when `best` was the longest so far. -/
def longestRun : List UInt16 → (start : Nat) → (best : Nat × Nat) → Nat × Nat
  | [], _, best => best
  | g :: gs, start, best =>
    let run := zeroRun (g :: gs)
    longestRun gs (start + 1) (if run > best.2 then (start, run) else best)

/-- Groups in hexadecimal, with colons between them. -/
def joined (gs : List UInt16) : List Char :=
  (List.intersperse [':'] (gs.map fun g => Nat.toDigits 16 g.toNat)).flatten

/-- Two groups as an IPv4 address. -/
def ipv4Chars (high low : UInt16) : List Char :=
  (List.intersperse ['.'] ([high.toNat / 256, high.toNat % 256, low.toNat / 256, low.toNat % 256].map
    (Nat.toDigits 10))).flatten

/-- The canonical text of the address. -/
def toChars (groups : Groups) : List Char :=
  match groups.toList with
  | [0, 0, 0, 0, 0, 0xFFFF, high, low] => "::ffff:".toList ++ ipv4Chars high low
  | gs =>
    let (start, length) := longestRun gs 0 (0, 0)
    if length > 1 then joined (gs.take start) ++ "::".toList ++ joined (gs.drop (start + length))
    else joined gs

end Ipv6

/-! ### IPv4 addresses as domain names -/

namespace Ipv4

/-- The value of digits to a base of at most 16. -/
def value? (base : Nat) (ds : List Char) : Option Nat :=
  ds.foldlM (fun n c => (Ipv6.hexDigit? c).bind fun d => if d < base then some (n * base + d) else none) 0

/-- The number that a part stands for. -/
def number? : List Char → Option Nat
  | [] => none
  | '0' :: 'x' :: ds | '0' :: 'X' :: ds => value? 16 ds
  | '0' :: d :: ds => value? 8 (d :: ds)
  | ds => value? 10 ds

/-- The parts between points, without an empty one at the end. -/
def partsOf (domain : List Char) : List (List Char) :=
  let parts := Text.parts '.' domain
  if parts.getLast? = some [] then parts.dropLast else parts

/-- Whether the last part is a number, or at least consists of decimal digits. -/
def endsInNumber (domain : List Char) : Bool :=
  match (partsOf domain).getLast? with
  | none | some [] => false
  | some part => part.all Char.isDigit || (number? part).isSome

/-- The address as one number, from the values of its parts. -/
def join? (values : List Nat) : Option Nat :=
  match values.reverse with
  | [] => none
  | last :: others =>
    let room := Nat.pow 256 (4 - others.length)
    if last < room ∧ others.all (· < 256) then
      some (others.reverse.foldl (fun n v => n * 256 + v) 0 * room + last)
    else none

/-- The address that a domain name stands for. -/
def ofChars? (domain : List Char) : Option Nat :=
  let parts := partsOf domain
  if parts.length > 4 then none else (parts.mapM number?).bind join?

/-- The address in four decimal parts. -/
def toChars (address : Nat) : List Char :=
  Ipv6.ipv4Chars (UInt16.ofNat (address / 65536)) (UInt16.ofNat (address % 65536))

end Ipv4
end SlotRouter
