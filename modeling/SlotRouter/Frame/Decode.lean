import SlotRouter.Error
import SlotRouter.Frame
import SlotRouter.Text.Words

/-!
# Reading frames

A `Decoder` gathers octets as they arrive and yields a frame when a whole one is in front. It removes exactly
the octets of that frame; when it needs more, or finds a fault, it keeps all (`Decoder.decode_eq_self`).

`Frame.parse` reads from the left, with an allowance for the nesting of arrays. It is a recursion on that
allowance and, inside an array, on the number of items.
-/

namespace SlotRouter

/-- What reading from the left has come to. -/
inductive Parsed (α : Type) where
  /-- A value was read; `rest` is what follows it. -/
  | done (value : α) (rest : Bytes)
  /-- More octets are needed. -/
  | incomplete
  | faulty (fault : Fault)

namespace Frame

/-- Splits at the first line end; `before` holds the octets already passed, reversed. -/
def splitLineFrom : Bytes → Bytes → Option (Bytes × Bytes)
  | before, 13 :: 10 :: rest => some (before.reverse, rest)
  | before, b :: rest => splitLineFrom (b :: before) rest
  | _, [] => none

/-- The octets before the first line end, and those after it. -/
def splitLine (bs : Bytes) : Option (Bytes × Bytes) := splitLineFrom [] bs

/-- The longest payload and the deepest nesting that are read. -/
structure Limits where
  /-- No buffer and no payload is longer. -/
  size : Nat := 512 * 1024 * 1024
  /-- Arrays may stand inside each other this often. -/
  depth : Nat := 32

/-- A payload of `length` octets and its line end. -/
def parsePayload (length : Nat) (bs : Bytes) : Parsed Frame :=
  match bs.drop length with
  | 13 :: 10 :: rest => .done (.bulk (bs.take length)) rest
  | _ :: _ :: _ => .faulty .payloadUnterminated
  | _ => .incomplete

/-- `count` values, each read by `item`. -/
def parseItems (item : Bytes → Parsed Frame) : Nat → Bytes → Parsed (List Frame)
  | 0, bs => .done [] bs
  | count + 1, bs =>
    match item bs with
    | .done f rest =>
      match parseItems item count rest with
      | .done fs rest => .done (f :: fs) rest
      | .incomplete => .incomplete
      | .faulty fault => .faulty fault
    | .incomplete => .incomplete
    | .faulty fault => .faulty fault

/-- The frame that starts with the line `tag`, `body` and goes on in `rest`; `items` reads the items of an
array, if another array may be opened here. -/
def parseAfterLine (size : Nat) (items : Option (Nat → Bytes → Parsed (List Frame))) (tag : UInt8)
    (body rest : Bytes) : Parsed Frame :=
  if tag = 43 then .done (.simple body) rest
  else if tag = 45 then .done (.error body) rest
  else if tag = 58 then
    match Decimal.int64? body with
    | some n => .done (.integer n) rest
    | none => .faulty (.malformedInteger body)
  else if tag = 36 then
    match Decimal.int64? body with
    | some n =>
      if n < 0 then .done .nilBulk rest
      else if n.toInt.toNat > size then .faulty .payloadTooLarge
      else parsePayload n.toInt.toNat rest
    | none => .faulty (.malformedInteger body)
  else if tag = 42 then
    match Decimal.int64? body with
    | some n =>
      if n < 0 then .done .nilArray rest
      else if n.toInt.toNat > size / 4 then .faulty .arrayTooLarge
      else match items with
        | none => .faulty .arrayTooDeep
        | some items =>
          match items n.toInt.toNat rest with
          | .done fs rest => .done (.array fs) rest
          | .incomplete => .incomplete
          | .faulty fault => .faulty fault
    | none => .faulty (.malformedInteger body)
  else .faulty (.unknownTag tag)

/-- Reads a frame in which arrays may be nested `depth` deep. -/
def parse (size : Nat) : (depth : Nat) → Bytes → Parsed Frame
  | _, [] => .incomplete
  | depth, tag :: bs =>
    match splitLine bs with
    | none => .incomplete
    | some (body, rest) =>
      match depth with
      | 0 => parseAfterLine size none tag body rest
      | depth + 1 => parseAfterLine size (some (parseItems (parse size depth))) tag body rest

end Frame

/-- Octets that have arrived and are not yet part of a frame. -/
structure Decoder where
  limits : Frame.Limits := {}
  buffer : Bytes := []

namespace Decoder

/-- Adds octets that have arrived. -/
def append (d : Decoder) (bs : Bytes) : Decoder := { d with buffer := d.buffer ++ bs }

/-- What one attempt to read a frame yields. -/
inductive Outcome where
  | frame (f : Frame)
  /-- More octets are needed. -/
  | incomplete
  | faulty (fault : Fault)

/-- The next frame, if it has arrived whole. -/
def decode (d : Decoder) : Outcome × Decoder :=
  if d.buffer.isEmpty then (.incomplete, d)
  else if d.buffer.length > d.limits.size then (.faulty .bufferTooLarge, d)
  else match Frame.parse d.limits.size d.limits.depth d.buffer with
    | .done f rest => (.frame f, { d with buffer := rest })
    | .incomplete => (.incomplete, d)
    | .faulty fault => (.faulty fault, d)

/-- Without a frame the decoder is as it was. -/
theorem decode_eq_self {d : Decoder} (h : ∀ f, (d.decode).1 ≠ .frame f) : (d.decode).2 = d := by
  unfold decode at h ⊢
  split
  · rfl
  · split
    · rfl
    · split <;> simp_all

/-- Reading never changes the limits. -/
theorem decode_limits (d : Decoder) : (d.decode).2.limits = d.limits := by
  unfold decode
  split
  · rfl
  · split
    · rfl
    · split <;> rfl

end Decoder
end SlotRouter
