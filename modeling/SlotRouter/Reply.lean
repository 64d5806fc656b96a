import SlotRouter.Error
import SlotRouter.Frame
import SlotRouter.Text.Words

/-!
# Reading replies

Each kind of reply has one reader from a frame. An error line is an error for every reader, wherever a value
is read from it.
-/

namespace SlotRouter.Reply

/-- The error that an error line in a reply stands for. -/
def reported (line : Bytes) : Error := .server (Utf8.lossyText line)

/-- An answer of the wrong kind. -/
def unexpected {α : Type} (wanted : String) : Except Error α :=
  .error (.protocol (.unexpectedReply wanted))

/-- Anything but an error. -/
def unit : Frame → Except Error Unit
  | .error line => .error (reported line)
  | _ => .ok ()

/-- Octets, or nothing. -/
def value : Frame → Except Error (Option Bytes)
  | .bulk payload => .ok (some payload)
  | .nilBulk => .ok none
  | .simple line => .ok (some line)
  | .nilArray => .ok none
  | .error line => .error (reported line)
  | _ => unexpected "bulk string"

/-- An integer, also one in decimal octets. -/
def integer : Frame → Except Error Int64
  | .integer n => .ok n
  | .bulk payload =>
    match Decimal.int64? payload with
    | some n => .ok n
    | none => .error (.protocol .integerReply)
  | .error line => .error (reported line)
  | _ => unexpected "integer"

/-- Reads each frame, up to the first that cannot be read. -/
def each {α β : Type} (read : α → Except Error β) : List α → Except Error (List β)
  | [] => .ok []
  | a :: as => do
    let b ← read a
    let bs ← each read as
    .ok (b :: bs)

/-- A list of values, each octets or nothing. -/
def values : Frame → Except Error (List (Option Bytes))
  | .array items => each value items
  | .error line => .error (reported line)
  | _ => unexpected "array"

/-- A value that is not nothing. -/
def present : Option Bytes → Except Error Bytes
  | some payload => .ok payload
  | none => unexpected "non-nil member"

/-- A list of octets. -/
def members (f : Frame) : Except Error (List Bytes) := do each present (← values f)

/-- The position in a scan. -/
def cursor (f : Frame) : Except Error UInt64 := do
  match (← value f).bind (Decimal.below? UInt64.size) with
  | some n => .ok (UInt64.ofNat n)
  | none => .error (.protocol .cursorReply)

/-- The position after a page of a scan, and the keys of the page. -/
def scan : Frame → Except Error (UInt64 × List Bytes)
  | .array [position, keys] => do
    let position ← cursor position
    let keys ← members keys
    .ok (position, keys)
  | .array _ => .error (.protocol .scanReply)
  | .error line => .error (reported line)
  | _ => unexpected "array for SCAN"

/-- The frame itself, unless it is an error. -/
def frame : Frame → Except Error Frame
  | .error line => .error (reported line)
  | f => .ok f

end SlotRouter.Reply
