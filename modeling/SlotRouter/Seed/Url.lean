import SlotRouter.Address
import SlotRouter.Error
import SlotRouter.Seed.Domain
import SlotRouter.Seed.Ip

/-!
# URLs of nodes

A URL has a scheme and, after two slashes, an authority: user information up to the last `@`, a host, and a port
after a colon. Tabs and line ends count for nothing, and neither do controls and spaces at the two ends. Only
scheme, host and port are kept.

In most schemes the host is opaque: any text without delimiters, in which controls and characters beyond ASCII
are percent-encoded. A few schemes are special: they need a host, which is a domain name or an IPv4 address, and a
backslash counts as a slash. In a `file` URL the whole authority is the host, and there may be none.
-/

namespace SlotRouter

/-- The host of a URL. -/
inductive Url.Host where
  | name (text : List Char)
  | ipv6 (address : Ipv6.Groups)

/-- The part of a URL that says how to reach a node. -/
structure Url where
  scheme : List Char
  host : Option Url.Host
  port : Option Nat

namespace Url

/-- The schemes that need a host. -/
def isSpecial (scheme : List Char) : Bool :=
  ["http", "https", "ws", "wss", "ftp"].any fun s => s.toList == scheme

/-- The port that a scheme implies. -/
def impliedPort (scheme : List Char) : Option Nat :=
  if scheme = "http".toList ∨ scheme = "ws".toList then some 80
  else if scheme = "https".toList ∨ scheme = "wss".toList then some 443
  else if scheme = "ftp".toList then some 21
  else none

/-- The text without what counts for nothing. -/
def significant (cs : List Char) : List Char :=
  let edge (c : Char) := c ≤ ' '
  ((cs.dropWhile edge).reverse.dropWhile edge).reverse.filter
    fun c => c != '\t' && c != '\n' && c != '\r'

/-- The octets of a character as percent signs and capital hexadecimal digits. -/
def percentEncoded (c : Char) : List Char :=
  (String.utf8EncodeChar c).flatMap fun b =>
    '%' :: [Nat.digitChar (b.toNat / 16), Nat.digitChar (b.toNat % 16)].map Char.toUpper

/-- A character as it stands in an opaque host. -/
def hostChar (c : Char) : List Char :=
  if c < ' ' ∨ c.toNat ≥ 0x7F then percentEncoded c else [c]

/-- The characters that no opaque host has. -/
def isForbidden (c : Char) : Bool :=
  c == '\x00' || c == '\t' || c == '\n' || c == '\r' || "#/:<>?@[]^| \\".toList.contains c

/-- The opaque host that a text stands for. -/
def readOpaque (text : List Char) : Except UrlFault Host :=
  if text.any isForbidden then .error .hostCharacter else .ok (.name (text.flatMap hostChar))

/-- The domain name or IPv4 address that a text stands for. -/
def readDomain (text : List Char) : Except UrlFault Host :=
  match Domain.ofChars? text with
  | none => .error .domainName
  | some [] => .error .emptyHost
  | some domain =>
    if Ipv4.endsInNumber domain then
      match Ipv4.ofChars? domain with
      | some address => .ok (.name (Ipv4.toChars address))
      | none => .error .ipv4Address
    else .ok (.name domain)

/-- The host that a text stands for: an IPv6 address in brackets, or else a domain name or an opaque text. -/
def readHost (domain : Bool) (text : List Char) : Except UrlFault Host :=
  match text with
  | '[' :: inner =>
    match inner.reverse with
    | ']' :: address =>
      match Ipv6.ofChars? address.reverse with
      | some groups => .ok (.ipv6 groups)
      | none => .error .ipv6Address
    | _ => .error .ipv6Address
  | _ => if domain then readDomain text else readOpaque text

/-- Whether the character ends an authority. -/
def endsAuthority (special : Bool) (c : Char) : Bool :=
  c == '/' || c == '?' || c == '#' || (special && c == '\\')

/-- The text up to the first colon outside brackets; `bracketed` says whether a bracket is open. -/
def takeHost (bracketed : Bool) : List Char → List Char
  | [] => []
  | c :: cs =>
    if c = ':' ∧ bracketed = false then []
    else c :: takeHost (if c = '[' then true else if c = ']' then false else bracketed) cs

/-- The digits of a port, which end at the end of the authority or at a backslash. -/
def portNumber (cs : List Char) : Except UrlFault (Option Nat) :=
  let digits := cs.takeWhile Char.isDigit
  let value := digits.foldl (fun n c => n * 10 + (c.toNat - '0'.toNat)) 0
  if value > 65535 then .error .portNumber
  else match cs.dropWhile Char.isDigit with
    | [] | '\\' :: _ => .ok (if digits.isEmpty then none else some value)
    | _ => .error .portNumber

/-- The user information before the last `@`, if there is one, and what stands after it. -/
def splitUser (authority : List Char) : Option (List Char) × List Char :=
  let after := authority.reverse.takeWhile (· != '@')
  match authority.reverse.dropWhile (· != '@') with
  | [] => (none, authority)
  | _ :: before => (some before.reverse, after.reverse)

/-- Host and port of an authority; `more` says whether something follows the authority. -/
def authority (scheme : List Char) (text : List Char) (more : Bool) :
    Except UrlFault (Option Host × Option Nat) :=
  let (user, rest) := splitUser text
  if user = some [] ∧ rest = [] ∧ more then .error .emptyHost
  else
    let name := takeHost false rest
    let tail := rest.drop name.length
    if name.isEmpty then
      if isSpecial scheme ∨ !tail.isEmpty then .error .emptyHost
      else match user with
        | none | some [] | some [':'] => .ok (none, none)
        | some _ => .error .emptyHost
    else do
      let h ← readHost (isSpecial scheme) name
      let p ← portNumber (tail.drop 1)
      .ok (some h, if p = impliedPort scheme then none else p)

/-- The scheme and what follows its colon. -/
def scheme? (cs : List Char) : Option (List Char × List Char) :=
  let inScheme (c : Char) := c.isAlpha || c.isDigit || c == '+' || c == '-' || c == '.'
  match cs.head?, cs.dropWhile inScheme with
  | some first, ':' :: rest =>
    if first.isAlpha then some ((cs.takeWhile inScheme).map Char.toLower, rest) else none
  | _, _ => none

/-- Host and port after the two slashes that a scheme may have. -/
def afterSlashes (scheme rest : List Char) : Except UrlFault Url := do
  let text := rest.takeWhile fun c => !endsAuthority (isSpecial scheme) c
  let (h, p) ← authority scheme text (text.length < rest.length)
  .ok ⟨scheme, h, p⟩

/-- Whether the text names a drive: a letter, and a colon or a bar. -/
def isDrive : List Char → Bool
  | [letter, mark] => letter.isAlpha && (mark == ':' || mark == '|')
  | _ => false

/-- The host of a `file` URL, if it has one. -/
def fileHost (rest : List Char) : Except UrlFault (Option Host) :=
  let slash (c : Char) := c == '/' || c == '\\'
  match rest with
  | a :: b :: rest =>
    let text := rest.takeWhile fun c => !endsAuthority true c
    if !slash a || !slash b || text.isEmpty || isDrive text then .ok none
    else (readHost true text).map some
  | _ => .ok none

/-- Reads the part of a URL that says how to reach a node. -/
def ofChars (cs : List Char) : Except UrlFault Url :=
  match scheme? (significant cs) with
  | none => .error .noScheme
  | some (scheme, rest) =>
    if scheme = "file".toList then (fileHost rest).map fun host => ⟨scheme, host, none⟩
    else if isSpecial scheme then
      afterSlashes scheme (rest.dropWhile fun c => c == '/' || c == '\\')
    else
      match "//".toList.isPrefixOf? rest with
      | some rest => afterSlashes scheme rest
      | none => .ok ⟨scheme, none, none⟩

end Url
end SlotRouter
