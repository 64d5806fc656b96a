import SlotRouter.Seed.Url
import SlotRouter.Text.Words

/-!
# Seeds

A seed is the address of a node from which the layout of the cluster can be learned: a host, a host and a port,
or a `redis://` URL. Reading a seed gives the address in the form that layouts use.
-/

namespace SlotRouter.Seed

/-- The port of a seed that names none. -/
def defaultPort : Nat := 6379

/-- Whether a colon and two slashes stand anywhere in the text. -/
def hasScheme : List Char → Bool
  | ':' :: '/' :: '/' :: _ => true
  | _ :: cs => hasScheme cs
  | [] => false

/-- A refusal of the seed. -/
def fail {α : Type} (misuse : Misuse) : Except Error α := .error (.invalidArgument misuse)

/-- The host as an address shows it. -/
def hostText : Url.Host → List Char
  | .name text => text
  | .ipv6 groups => Ipv6.toChars groups

/-- The address of a URL that was written as `seed`. -/
def addressOf (seed : String) (url : Url) : Except Error String :=
  if url.scheme = "rediss".toList then fail (.encryptedSeed seed)
  else if url.scheme ≠ "redis".toList then fail (.foreignScheme (String.ofList url.scheme))
  else match url.host with
    | none => fail (.seedWithoutHost seed)
    | some host =>
      .ok (String.ofList (Address.join (hostText host) (url.port.getD defaultPort)))

/-- The address of a seed. -/
def read (text : String) : Except Error String :=
  let seed := Text.trim text.toList
  if seed.isEmpty then fail .emptySeed
  else
    let shown := String.ofList seed
    match Url.ofChars (if hasScheme seed then seed else "redis://".toList ++ seed) with
    | .ok url => addressOf shown url
    | .error fault => fail (.malformedSeed shown fault)

/-- The addresses of seeds, up to the first that cannot be read. -/
def readEach : List String → Except Error (List String)
  | [] => .ok []
  | s :: ss => do
    let a ← read s
    let as ← readEach ss
    .ok (a :: as)

/-- The addresses of the seeds in a text with commas between them; blank parts are passed over. -/
def readList (text : String) : Except Error (List String) :=
  readEach (((Text.parts ',' text.toList).filter fun part => !(Text.trim part).isEmpty).map
    String.ofList)

end SlotRouter.Seed
