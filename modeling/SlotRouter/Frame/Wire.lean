import SlotRouter.Frame
import SlotRouter.Text.Words

/-!
# Frames on the wire

`Wire size depth w f` says that the octets `w` are a form of the frame `f`, for payloads of at most `size` octets
and arrays nested at most `depth` deep. A frame has many forms: a number may have a plus sign and leading
zeros, and any negative length means nil.

`Frame.encode` is the form that is written. Every form starts with a tag octet and ends with a line end;
a payload is preceded by its length and an array by the number of its items, so a payload may hold any
octets. An `Encoder` gathers the wire forms of frames until they are taken (`take_writeAll`).
-/

namespace SlotRouter
namespace Frame

/-! ### The grammar -/

/-- No line end stands in the octets. -/
def NoLineEnd (bs : Bytes) : Prop := ¬ Bytes.crlf <:+: bs

/-- The octets are a decimal form of the number. -/
def Numeral (bs : Bytes) (n : Int64) : Prop := Decimal.int64? bs = some n

mutual

/-- The octets are a form of the frame. -/
inductive Wire (size : Nat) : (depth : Nat) → (w : Bytes) → Frame → Prop where
  | simple {depth : Nat} {body : Bytes} (h : NoLineEnd body) :
      Wire size depth (43 :: body ++ Bytes.crlf) (.simple body)
  | error {depth : Nat} {body : Bytes} (h : NoLineEnd body) :
      Wire size depth (45 :: body ++ Bytes.crlf) (.error body)
  | integer {depth : Nat} {body : Bytes} {n : Int64} (h : Numeral body n) :
      Wire size depth (58 :: body ++ Bytes.crlf) (.integer n)
  | nilBulk {depth : Nat} {body : Bytes} {n : Int64} (h : Numeral body n) (neg : n < 0) :
      Wire size depth (36 :: body ++ Bytes.crlf) .nilBulk
  | bulk {depth : Nat} {body payload : Bytes} {n : Int64} (h : Numeral body n)
      (len : n.toInt = payload.length) (fits : payload.length ≤ size) :
      Wire size depth (36 :: body ++ Bytes.crlf ++ payload ++ Bytes.crlf) (.bulk payload)
  | nilArray {depth : Nat} {body : Bytes} {n : Int64} (h : Numeral body n) (neg : n < 0) :
      Wire size depth (42 :: body ++ Bytes.crlf) .nilArray
  | array {depth : Nat} {body w : Bytes} {n : Int64} {items : List Frame} (h : Numeral body n)
      (len : n.toInt = items.length) (fits : items.length ≤ size / 4)
      (each : WireItems size depth w items) :
      Wire size (depth + 1) (42 :: body ++ Bytes.crlf ++ w) (.array items)

/-- The octets are forms of the frames, one after the other. -/
inductive WireItems (size : Nat) : (depth : Nat) → (w : Bytes) → List Frame → Prop where
  | nil {depth : Nat} : WireItems size depth [] []
  | cons {depth : Nat} {v w : Bytes} {f : Frame} {fs : List Frame} (head : Wire size depth v f)
      (tail : WireItems size depth w fs) : WireItems size depth (v ++ w) (f :: fs)

end

/-! ### Writing -/

/-- A line: a tag, a body and a line end. -/
def taggedLine (tag : UInt8) (body : Bytes) : Bytes := tag :: (body ++ Bytes.crlf)

mutual

/-- The wire form of a frame. -/
def encode : Frame → Bytes
  | .simple line => taggedLine 43 line
  | .error line => taggedLine 45 line
  | .integer value => taggedLine 58 (Decimal.ofInt value.toInt)
  | .bulk payload => taggedLine 36 (Decimal.digits payload.length) ++ payload ++ Bytes.crlf
  | .nilBulk => taggedLine 36 (Decimal.ofInt (-1))
  | .array items => taggedLine 42 (Decimal.digits items.length) ++ encodeAll items
  | .nilArray => taggedLine 42 (Decimal.ofInt (-1))

/-- The wire forms of frames, one after the other. -/
def encodeAll : List Frame → Bytes
  | [] => []
  | f :: fs => encode f ++ encodeAll fs

end

end Frame

/-- The wire forms of the frames written since the last take. -/
structure Encoder where
  pending : Bytes := []

namespace Encoder

/-- Adds the wire form of a frame. -/
def write (e : Encoder) (f : Frame) : Encoder := { e with pending := e.pending ++ f.encode }

/-- What has been written, and the emptied encoder. -/
def take (e : Encoder) : Bytes × Encoder := (e.pending, { e with pending := [] })

/-- Taking after several writes yields the wire forms in order and leaves nothing behind. -/
theorem take_writeAll (fs : List Frame) :
    take (fs.foldl write {}) = (Frame.encodeAll fs, {}) := by
  have h : ∀ (e : Encoder) (fs : List Frame),
      (fs.foldl write e).pending = e.pending ++ Frame.encodeAll fs := by
    intro e fs
    induction fs generalizing e with
    | nil => simp [Frame.encodeAll]
    | cons f fs ih => simp [List.foldl_cons, ih, write, Frame.encodeAll]
  simp [take, h]

end Encoder

end SlotRouter
