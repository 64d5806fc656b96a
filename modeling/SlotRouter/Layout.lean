import SlotRouter.Address
import SlotRouter.Error
import SlotRouter.Frame

/-!
# Cluster layouts

A layout lists ranges of slots, each with the address of its master and of its replicas. It is read from
the reply to `CLUSTER SLOTS`: one bad range makes the whole reply bad, but a replica that cannot be read is
left out. An empty host, or `?`, stands for the host that was asked.
-/

namespace SlotRouter

/-- Slots from `first` to `last`, and who serves them. -/
structure SlotRange where
  first : UInt16
  last : UInt16
  master : String
  replicas : List String
  deriving DecidableEq, Inhabited

namespace SlotRange

/-- Whether the slot is in the range. -/
def contains (r : SlotRange) (slot : UInt16) : Bool := r.first ≤ slot && slot ≤ r.last

/-- The number of slots of a range that is not empty, as a 16-bit word. -/
def length (r : SlotRange) : UInt16 := r.last - r.first + 1

/-- Whether the range has no slot. -/
def isEmpty (r : SlotRange) : Bool := r.last < r.first

end SlotRange

namespace Layout

/-- An answer that is a fault of the reply. -/
def fail {α : Type} (fault : Fault) : Except Error α := .error (.protocol fault)

/-- A slot at one end of a range. -/
def slot : Frame → Except Error UInt16
  | .integer n => if 0 ≤ n ∧ n < 16384 then .ok (UInt16.ofNat n.toInt.toNat) else fail .slotBound
  | _ => fail .slotBound

/-- The host of a node, when `asked` is the host that was asked. -/
def host (asked : List Char) (payload : Bytes) : List Char :=
  let host := Utf8.lossy payload
  if host = [] ∨ host = ['?'] then asked else host

/-- The port of a node. -/
def port : Frame → Except Error Int
  | .integer p => if 1 ≤ p ∧ p ≤ 65535 then .ok p.toInt else fail .nodePort
  | _ => fail .nodePort

/-- The address of a node. -/
def node (asked : List Char) (f : Frame) : Except Error String :=
  match f.items? with
  | none => fail .nodeNotArray
  | some (h :: p :: _) =>
    match h.payload? with
    | none => fail .nodeHost
    | some payload =>
      match port p with
      | .ok p => .ok (String.ofList (Address.join (host asked payload) p))
      | .error e => .error e
  | some _ => fail .nodeTooShort

/-- The address of a node that can be read. -/
def node? (asked : List Char) (f : Frame) : Option String := (node asked f).toOption

/-- One range of slots. -/
def range (asked : List Char) (f : Frame) : Except Error SlotRange :=
  match f.items? with
  | none => fail .rangeNotArray
  | some (first :: last :: master :: replicas) => do
    let first ← slot first
    let last ← slot last
    if last < first then fail .rangeReversed
    else
      let master ← node asked master
      .ok ⟨first, last, master, replicas.filterMap (node? asked)⟩
  | some _ => fail .rangeTooShort

/-- The ranges of a layout. -/
def ranges (asked : List Char) : List Frame → Except Error (List SlotRange)
  | [] => .ok []
  | f :: fs => do
    let r ← range asked f
    let rs ← ranges asked fs
    .ok (r :: rs)

/-- The layout in the reply of the host that was asked. -/
def ofReply (asked : String) (f : Frame) : Except Error (List SlotRange) :=
  match f.items? with
  | some fs => ranges asked.toList fs
  | none => fail .layoutNotArray

end Layout
end SlotRouter
