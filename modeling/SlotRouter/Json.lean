import SlotRouter.Seed.Ip

/-!
# JSON texts

A reader of JSON that keeps what a strict consumer needs to judge: the fields of an object in order, repeated ones
included, and whether a number is written as a plain whole number.
-/

namespace SlotRouter

/-- A JSON value as it was written. -/
inductive Json where
  | null
  | bool (b : Bool)
  /-- A number written with digits alone. -/
  | natural (n : Nat)
  /-- Any other number. -/
  | number
  | text (s : String)
  /-- A text with a surrogate that has no partner. -/
  | unpaired
  | array (items : List Json)
  | object (fields : List (Json × Json))
  deriving Inhabited

namespace Json

/-- The characters that may stand between the parts of a JSON text. -/
def isGap (c : Char) : Bool := c == ' ' || c == '\n' || c == '\t' || c == '\r'

/-- What follows a gap. -/
def skip (cs : List Char) : List Char := cs.dropWhile isGap

/-- The 16-bit number of four hexadecimal digits, and what follows. -/
def unit? : List Char → Option (Nat × List Char)
  | a :: b :: c :: d :: rest =>
    match [a, b, c, d].mapM Ipv6.hexDigit? with
    | some ds => some (ds.foldl (fun n d => n * 16 + d) 0, rest)
    | none => none
  | _ => none

/-- The character that a one-letter escape stands for. -/
def escape? (c : Char) : Option Char :=
  match c with
  | '"' => some '"'
  | '\\' => some '\\'
  | '/' => some '/'
  | 'b' => some '\x08'
  | 'f' => some '\x0c'
  | 'n' => some '\n'
  | 'r' => some '\r'
  | 't' => some '\t'
  | _ => none

/-- Reads on in a text up to its closing quote. `before` holds its characters, reversed, or nothing once an
unpaired surrogate has been read. -/
def chars (fuel : Nat) (before : Option (List Char)) (cs : List Char) : Option (Json × List Char) :=
  match fuel with
  | 0 => none
  | fuel + 1 =>
    match cs with
    | '"' :: rest =>
      some (match before with
        | some before => .text (String.ofList before.reverse)
        | none => .unpaired, rest)
    | '\\' :: 'u' :: rest =>
      match unit? rest with
      | none => none
      | some (high, rest) =>
        if 0xD800 ≤ high ∧ high < 0xDC00 then
          match rest with
          | '\\' :: 'u' :: more =>
            match unit? more with
            | none => none
            | some (low, more) =>
              if 0xDC00 ≤ low ∧ low < 0xE000 then
                let c := Char.ofNat (0x10000 + (high - 0xD800) * 0x400 + (low - 0xDC00))
                chars fuel (before.map (c :: ·)) more
              else chars fuel none rest
          | _ => chars fuel none rest
        else if 0xDC00 ≤ high ∧ high < 0xE000 then chars fuel none rest
        else chars fuel (before.map (Char.ofNat high :: ·)) rest
    | '\\' :: c :: rest =>
      match escape? c with
      | some c => chars fuel (before.map (c :: ·)) rest
      | none => none
    | c :: rest => if c < ' ' then none else chars fuel (before.map (c :: ·)) rest
    | [] => none

/-- One digit at least, and what follows the digits. -/
def digits? (cs : List Char) : Option (List Char × List Char) :=
  let ds := cs.takeWhile Char.isDigit
  if ds.isEmpty then none else some (ds, cs.dropWhile Char.isDigit)

/-- What follows an exponent, or the text itself. -/
def afterExponent? (cs : List Char) : Option (List Char) :=
  match cs with
  | 'e' :: '+' :: rest | 'e' :: '-' :: rest | 'E' :: '+' :: rest | 'E' :: '-' :: rest
  | 'e' :: rest | 'E' :: rest => (digits? rest).map Prod.snd
  | _ => some cs

/-- What follows the places after a point, or the text itself. -/
def afterFraction? (cs : List Char) : Option (List Char) :=
  match cs with
  | '.' :: rest => (digits? rest).map Prod.snd
  | _ => some cs

/-- The value of decimal digits. -/
def valueOf (ds : List Char) : Nat := ds.foldl (fun n c => n * 10 + (c.toNat - '0'.toNat)) 0

/-- A number, and what follows it. -/
def number? (cs : List Char) : Option (Json × List Char) := do
  let (minus, body) := match cs with
    | '-' :: rest => (true, rest)
    | _ => (false, cs)
  let (ds, rest) ← digits? body
  if ds.length > 1 ∧ ds.head? = some '0' then none
  let fraction ← afterFraction? rest
  let exponent ← afterExponent? fraction
  some (if minus || exponent.length < rest.length then .number else .natural (valueOf ds), exponent)

/-- What follows the word. -/
def word? (word : String) (value : Json) (cs : List Char) : Option (Json × List Char) :=
  (word.toList.isPrefixOf? cs).map fun rest => (value, rest)

mutual

/-- A value, and what follows it; `fuel` bounds the number of steps. -/
def value? (fuel : Nat) (cs : List Char) : Option (Json × List Char) :=
  match fuel with
  | 0 => none
  | fuel + 1 =>
    match skip cs with
    | '{' :: rest =>
      match skip rest with
      | '}' :: rest => some (.object [], rest)
      | rest => (fields? fuel rest).map fun r => (.object r.1, r.2)
    | '[' :: rest =>
      match skip rest with
      | ']' :: rest => some (.array [], rest)
      | rest => (items? fuel rest).map fun r => (.array r.1, r.2)
    | '"' :: rest => chars (rest.length + 1) (some []) rest
    | 'n' :: rest => word? "ull" .null rest
    | 't' :: rest => word? "rue" (.bool true) rest
    | 'f' :: rest => word? "alse" (.bool false) rest
    | cs => number? cs

/-- The items up to the closing bracket. -/
def items? (fuel : Nat) (cs : List Char) : Option (List Json × List Char) :=
  match fuel with
  | 0 => none
  | fuel + 1 => do
    let (item, rest) ← value? fuel cs
    match skip rest with
    | ',' :: rest => (items? fuel rest).map fun r => (item :: r.1, r.2)
    | ']' :: rest => some ([item], rest)
    | _ => none

/-- The fields up to the closing brace. -/
def fields? (fuel : Nat) (cs : List Char) : Option (List (Json × Json) × List Char) :=
  match fuel with
  | 0 => none
  | fuel + 1 =>
    match skip cs with
    | '"' :: rest => do
      let (key, rest) ← chars (rest.length + 1) (some []) rest
      match skip rest with
      | ':' :: rest => do
        let (value, rest) ← value? fuel rest
        match skip rest with
        | ',' :: rest => (fields? fuel rest).map fun r => ((key, value) :: r.1, r.2)
        | '}' :: rest => some ([(key, value)], rest)
        | _ => none
      | _ => none
    | _ => none

end

/-- The value of a whole text. Every step of the reader takes at least half a character. -/
def ofText? (s : String) : Option Json :=
  match value? (2 * s.length + 2) s.toList with
  | some (v, rest) => if (skip rest).isEmpty then some v else none
  | none => none

end Json
end SlotRouter
