import SlotRouter.Command
import SlotRouter.Frame.Wire
import SlotRouter.Proofs.Frame.Chunks

/-!
# Reading undoes writing

What is written for a frame is a form of it (`Frame.wire_encode`), if it holds no line end in a line and no
array that is too long or too deep to be read. So whoever reads what was written comes to the frames that were
written, however the octets are cut (`Decoder.feed_encodeAll`).

A command is an array of payloads, and a payload may hold any octets. There is nothing to be asked of the
arguments of a command for it to arrive as it was (`Decoder.decode_command`, `Decoder.feed_commands`).

Key definitions: `Frame.depth`, `Frame.Writable`, `Command.ofFrame?`.
Key theorem: `Encoder.reads_what_was_written`.
-/

namespace SlotRouter.Frame

mutual

/-- How often arrays stand inside each other. -/
def depth : Frame → Nat
  | .array items => depthAll items + 1
  | .simple _ | .error _ | .integer _ | .bulk _ | .nilBulk | .nilArray => 0

/-- The depth of the deepest. -/
def depthAll : List Frame → Nat
  | [] => 0
  | f :: fs => max (depth f) (depthAll fs)

end

mutual

/-- No line holds a line end, and no array is longer than a reader with this limit takes. -/
def Writable (size : Nat) : Frame → Prop
  | .simple line | .error line => NoLineEnd line
  | .array items => items.length ≤ size / 4 ∧ WritableAll size items
  | .integer _ | .bulk _ | .nilBulk | .nilArray => True

/-- Each of the frames is so. -/
def WritableAll (size : Nat) : List Frame → Prop
  | [] => True
  | f :: fs => Writable size f ∧ WritableAll size fs

end

variable {size depth : Nat}

/-- Each of the items has a tag and a line end. -/
theorem WireItems.three_mul_le {w : Bytes} {fs : List Frame} (h : WireItems size depth w fs) :
    3 * fs.length ≤ w.length := by
  induction fs generalizing w with
  | nil => exact Nat.zero_le _
  | cons f fs ih =>
    cases h with
    | cons head tail =>
      have hhead := head.three_le
      have htail := ih tail
      rw [List.length_cons, List.length_append]
      omega

/-- What is written for a length is a numeral that stands for it. -/
theorem numeral_digits {n : Nat} (h : n < 2 ^ 63) :
    Numeral (Decimal.digits n) (Int64.ofNat n) ∧ (Int64.ofNat n).toInt = n :=
  ⟨Decimal.int64?_digits h, Int64.toInt_ofNat_of_lt h⟩

mutual

/-- **What is written for a frame is a form of it.** -/
theorem wire_encode : ∀ {depth : Nat} {f : Frame}, Writable size f → f.depth ≤ depth →
    f.encode.length ≤ size → f.encode.length < 2 ^ 63 → Wire size depth f.encode f
  | _, .simple _, hline, _, _, _ => .simple hline
  | _, .error _, hline, _, _, _ => .error hline
  | _, .integer n, _, _, _, _ => .integer (Decimal.int64?_ofInt n)
  | _, .nilBulk, _, _, _, _ => .nilBulk (Decimal.int64?_ofInt (-1)) (by decide)
  | _, .nilArray, _, _, _, _ => .nilArray (Decimal.int64?_ofInt (-1)) (by decide)
  | _, .bulk payload, _, _, hfits, hshort => by
    have hle : payload.length ≤ (Frame.bulk payload).encode.length := by
      simp only [encode, List.length_append]
      omega
    obtain ⟨hnumeral, hvalue⟩ := numeral_digits (hle.trans_lt hshort)
    exact .bulk hnumeral hvalue (hle.trans hfits)
  | depth, .array items, hwritable, hdepth, hfits, hshort => by
    obtain ⟨inner, rfl⟩ : ∃ inner, depth = inner + 1 := ⟨depth - 1, by rw [Frame.depth] at hdepth; omega⟩
    have hle : (encodeAll items).length ≤ (Frame.array items).encode.length := by
      simp only [encode, List.length_append]
      omega
    have hitems : WireItems size inner (encodeAll items) items :=
      wireItems_encodeAll hwritable.2 (Nat.le_of_succ_le_succ hdepth) (hle.trans hfits) (hle.trans_lt hshort)
    have hthree := hitems.three_mul_le
    obtain ⟨hnumeral, hvalue⟩ := numeral_digits (show items.length < 2 ^ 63 by omega)
    exact .array hnumeral hvalue hwritable.1 hitems

theorem wireItems_encodeAll : ∀ {depth : Nat} {fs : List Frame}, WritableAll size fs → depthAll fs ≤ depth →
    (encodeAll fs).length ≤ size → (encodeAll fs).length < 2 ^ 63 → WireItems size depth (encodeAll fs) fs
  | _, [], _, _, _, _ => .nil
  | _, f :: fs, hwritable, hdepth, hfits, hshort => by
    rw [depthAll] at hdepth
    rw [encodeAll, List.length_append] at hfits hshort
    exact .cons (wire_encode hwritable.1 (by omega) (by omega) (by omega))
      (wireItems_encodeAll hwritable.2 (by omega) (by omega) (by omega))

end

/-! ### Payloads -/

theorem depthAll_bulk (payloads : List Bytes) : depthAll (payloads.map .bulk) = 0 := by
  induction payloads with
  | nil => rfl
  | cons payload payloads ih => rw [List.map_cons, depthAll, ih, Frame.depth, Nat.max_self]

theorem writableAll_bulk (payloads : List Bytes) : WritableAll size (payloads.map .bulk) := by
  induction payloads with
  | nil => exact trivial
  | cons payload payloads ih => exact ⟨trivial, ih⟩

/-- The form of a payload is at least a tag, a digit and two line ends. -/
theorem length_encodeAll_bulk (payloads : List Bytes) :
    6 * payloads.length ≤ (encodeAll (payloads.map .bulk)).length := by
  induction payloads with
  | nil => exact Nat.zero_le _
  | cons payload payloads ih =>
    have hdigits : 0 < (Decimal.digits payload.length).length :=
      List.length_pos_iff.2 (Decimal.digitsBefore_ne_nil _ _)
    rw [List.map_cons, encodeAll, encode, List.length_append, List.length_cons]
    simp only [taggedLine, Bytes.crlf, List.length_append, List.length_cons, List.length_nil]
    omega

end SlotRouter.Frame

namespace SlotRouter.Command

/-- The payload, of what is nothing but a payload. -/
def word? : Frame → Option Bytes
  | .bulk payload => some payload
  | _ => none

/-- The command that a frame carries: an array of payloads, and the first of them is the name. -/
def ofFrame? : Frame → Option Command
  | .array items =>
    match items.mapM word? with
    | some (name :: arguments) => some { name, arguments }
    | _ => none
  | _ => none

theorem mapM_word? (words : List Bytes) : (words.map Frame.bulk).mapM word? = some words := by
  induction words with
  | nil => rfl
  | cons word words ih =>
    rw [List.map_cons, List.mapM_cons, ih]
    rfl

/-- A command is read from the frame that carries it. -/
theorem ofFrame?_toFrame (c : Command) : ofFrame? c.toFrame = some c := by
  rw [toFrame, ofFrame?, mapM_word?]
  rfl

theorem map_ofFrame? (cs : List Command) : (cs.map toFrame).map ofFrame? = cs.map some := by
  rw [List.map_map]
  exact List.map_congr_left fun c _ => ofFrame?_toFrame c

theorem depthAll_toFrame (cs : List Command) : Frame.depthAll (cs.map toFrame) ≤ 1 := by
  induction cs with
  | nil => exact Nat.zero_le _
  | cons c cs ih =>
    rw [List.map_cons, Frame.depthAll, toFrame, Frame.depth, Frame.depthAll_bulk]
    omega

/-- Commands that fit have no array that is too long, whatever their arguments are. -/
theorem writableAll_toFrame {size : Nat} {cs : List Command}
    (fits : (Frame.encodeAll (cs.map toFrame)).length ≤ size) : Frame.WritableAll size (cs.map toFrame) := by
  induction cs with
  | nil => exact trivial
  | cons c cs ih =>
    rw [List.map_cons, Frame.encodeAll, List.length_append] at fits
    have hwords := Frame.length_encodeAll_bulk c.words
    have hitems : (Frame.encodeAll (c.words.map .bulk)).length ≤ c.toFrame.encode.length := by
      rw [toFrame, Frame.encode, List.length_append]
      omega
    refine ⟨⟨?_, Frame.writableAll_bulk c.words⟩, ih (by omega)⟩
    rw [List.length_map]
    omega

theorem encodeAll_toFrame (cs : List Command) : Frame.encodeAll (cs.map toFrame) = cs.flatMap encode := by
  induction cs with
  | nil => rfl
  | cons c cs ih =>
    rw [List.map_cons, Frame.encodeAll, ih]
    rfl

end SlotRouter.Command

namespace SlotRouter.Decoder

variable {limits : Frame.Limits} {chunks : List Bytes} {d : Decoder} {c : Command} {rest : Bytes}

/-- **Whoever reads what was written comes to the frames that were written**, and to nothing else. -/
theorem feed_encodeAll {fs : List Frame} (hlines : Frame.WritableAll limits.size fs)
    (hdepth : Frame.depthAll fs ≤ limits.depth) (fits : (Frame.encodeAll fs).length ≤ limits.size)
    (hshort : (Frame.encodeAll fs).length < 2 ^ 63) (hchunks : chunks.flatten = Frame.encodeAll fs) :
    feed limits chunks = ⟨fs, none, { limits }⟩ := by
  have hforms := Frame.wireItems_encodeAll hlines hdepth fits hshort
  have hbuffer : chunks.flatten = Frame.encodeAll fs ++ [] := by rw [hchunks, List.append_nil]
  have hnone : ({ limits } : Decoder).drain = ⟨[], none, { limits }⟩ := drain_of_incomplete rfl
  rw [← hchunks] at fits
  rw [feed_eq fits, drain_of_wireItems fits hbuffer hforms, hnone, Drained.after, List.append_nil]

/-- **The octets of commands are read as these commands**, whatever their arguments are. -/
theorem feed_commands {cs : List Command} (hdepth : 0 < limits.depth)
    (fits : (cs.flatMap Command.encode).length ≤ limits.size) (hshort : (cs.flatMap Command.encode).length < 2 ^ 63)
    (hchunks : chunks.flatten = cs.flatMap Command.encode) :
    feed limits chunks = ⟨cs.map Command.toFrame, none, { limits }⟩ := by
  rw [← Command.encodeAll_toFrame] at fits hshort hchunks
  exact feed_encodeAll (Command.writableAll_toFrame fits) ((Command.depthAll_toFrame cs).trans hdepth) fits hshort
    hchunks

/-- **The octets of a command are read as the frame that carries it**, and what stands behind them is kept. -/
theorem decode_command (hdepth : 0 < d.limits.depth) (fits : d.buffer.length ≤ d.limits.size)
    (hshort : d.buffer.length < 2 ^ 63) (hbuffer : d.buffer = c.encode ++ rest) :
    d.decode = (.frame c.toFrame, { d with buffer := rest }) := by
  have hle : c.encode.length ≤ d.buffer.length := by
    rw [hbuffer, List.length_append]
    exact Nat.le_add_right _ _
  have hone : (Frame.encodeAll ([c].map Command.toFrame)).length ≤ d.limits.size := by
    rw [Command.encodeAll_toFrame, List.flatMap_singleton]
    exact hle.trans fits
  have hwritable := (Command.writableAll_toFrame hone).1
  have hshallow : c.toFrame.depth ≤ d.limits.depth :=
    (Nat.le_max_left _ _).trans ((Command.depthAll_toFrame [c]).trans hdepth)
  have hform : Frame.Wire d.limits.size d.limits.depth c.encode c.toFrame :=
    Frame.wire_encode hwritable hshallow (hle.trans fits) (hle.trans_lt hshort)
  exact (decode_eq_frame_iff fits).2 ⟨c.encode, hbuffer, hform⟩

end SlotRouter.Decoder

namespace SlotRouter.Encoder

variable {limits : Frame.Limits}

/-- **Reading undoes writing, over whole streams.** If frames are written one after the other and what was
written is taken, nothing is left to be taken. If no line holds a line end, no array is too long and none too
deep for the reader, and all of it fits, then the reader comes to these frames, in their order, and then has
nothing left and needs more; and this however the octets are cut. Of commands it need only be asked that they
fit: whatever their arguments hold, they arrive as the commands they were. (Lengths are written as numbers of 64
bits with a sign, and no buffer is longer than these can say.) -/
theorem reads_what_was_written (limits : Frame.Limits) :
    (∀ fs octets e, take (fs.foldl write {}) = (octets, e) → e.take.1 = [] ∧
      (Frame.WritableAll limits.size fs → Frame.depthAll fs ≤ limits.depth → octets.length ≤ limits.size →
        octets.length < 2 ^ 63 → ∀ chunks : List Bytes, chunks.flatten = octets →
          Decoder.feed limits chunks = ⟨fs, none, { limits }⟩)) ∧
    ∀ (cs : List Command) octets e, take ((cs.map Command.toFrame).foldl write {}) = (octets, e) →
      0 < limits.depth → octets.length ≤ limits.size → octets.length < 2 ^ 63 →
        ∀ chunks : List Bytes, chunks.flatten = octets →
          Decoder.feed limits chunks = ⟨cs.map Command.toFrame, none, { limits }⟩ ∧
            (Decoder.feed limits chunks).frames.map Command.ofFrame? = cs.map some := by
  constructor
  · intro fs octets e hwritten
    refine ⟨?_, fun hlines hdepth fits hshort chunks hchunks => ?_⟩
    · rw [take_writeAll] at hwritten
      obtain ⟨rfl, rfl⟩ := Prod.mk.inj hwritten
      rfl
    · rw [take_writeAll] at hwritten
      obtain ⟨rfl, -⟩ := Prod.mk.inj hwritten
      exact Decoder.feed_encodeAll hlines hdepth fits hshort hchunks
  · intro cs octets e hwritten hdepth fits hshort chunks hchunks
    rw [take_writeAll, Command.encodeAll_toFrame] at hwritten
    obtain ⟨rfl, -⟩ := Prod.mk.inj hwritten
    have hread := Decoder.feed_commands hdepth fits hshort hchunks
    refine ⟨hread, ?_⟩
    rw [hread]
    exact Command.map_ofFrame? cs

/-- Commands whose arguments look like what is written around them, or like nothing. -/
def hostile : List Command :=
  [.set (Bytes.ofText "a\r\n$-1") (Bytes.ofText "*1\r\n$4\r\nPING\r\n"), .echo [], .echo [0, 36, 42, 13, 10]]

/-- Every way to say nothing, the least of the numbers, and a line that holds half a line end. -/
def replies : List Frame :=
  [.array [.nilArray, .array [], .bulk [], .nilBulk], .integer Int64.minValue, .ofText "a\rb"]

/-- What is written for frames. -/
def sent (fs : List Frame) : Bytes := (take (fs.foldl write {})).1

/-- The commands arrive octet by octet, and the frames at once. -/
theorem reads_what_was_written_hostile :
    (0 < ({} : Frame.Limits).depth ∧ (sent (hostile.map Command.toFrame)).length ≤ ({} : Frame.Limits).size ∧
      (Decoder.feed {} ((sent (hostile.map Command.toFrame)).map fun b => [b])).frames.map Command.ofFrame? =
        hostile.map some) ∧
    (Frame.WritableAll ({} : Frame.Limits).size replies ∧ Frame.depthAll replies ≤ ({} : Frame.Limits).depth ∧
      (sent replies).length ≤ ({} : Frame.Limits).size ∧
      Decoder.feed {} [sent replies] = ⟨replies, none, {}⟩) := by
  obtain ⟨hframes, hcommands⟩ := reads_what_was_written {}
  constructor
  · have hdepth : 0 < ({} : Frame.Limits).depth := by decide
    have hlength : (sent (hostile.map Command.toFrame)).length = 91 := by cbv
    have fits : (sent (hostile.map Command.toFrame)).length ≤ ({} : Frame.Limits).size := hlength.trans_le (by decide)
    have hread := hcommands hostile _ _ rfl hdepth fits (fits.trans_lt (by decide)) _ (List.flatMap_singleton' _)
    exact ⟨hdepth, fits, hread.2⟩
  · have hline : Frame.NoLineEnd (Bytes.ofText "a\rb") := by decide
    have hlines : Frame.WritableAll ({} : Frame.Limits).size replies :=
      ⟨⟨by decide, trivial, ⟨by decide, trivial⟩, trivial, trivial, trivial⟩, trivial, hline, trivial⟩
    have hdepth : Frame.depthAll replies ≤ ({} : Frame.Limits).depth := by decide
    have hlength : (sent replies).length = 53 := by cbv
    have fits : (sent replies).length ≤ ({} : Frame.Limits).size := hlength.trans_le (by decide)
    obtain ⟨-, hread⟩ := hframes replies _ _ rfl
    exact ⟨hlines, hdepth, fits,
      hread hlines hdepth fits (fits.trans_lt (by decide)) [sent replies] (List.append_nil _)⟩

end SlotRouter.Encoder
