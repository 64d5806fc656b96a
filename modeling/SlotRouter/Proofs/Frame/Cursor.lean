import Mathlib.Tactic.SplitIfs
import SlotRouter.Proofs.Frame.Grammar

/-!
# A cursor over the octets

A frame can be read by a cursor that moves over all the octets at hand and counts the arrays that are open. It
looks at octets by their index and takes them by slices, either of which may be out of range, and the count goes
down again only when the items of an array are complete. `Cursor.Runs` is one call of such a reader, with all the
calls that it makes; how many items an array has is what the octets say, and nothing else bounds the calls.

A call at a place inside the octets, with no more arrays open than are allowed, tells what `Frame.parse` tells of
the octets from there on, with the allowance that is left (`Cursor.Runs.sound`). It is never out of range. If it
yields a frame, it has passed three octets for each call that it made and three of its own, and as many arrays are
open as before. So there is at most one call for every three octets, and one that finds no frame. Every call comes
to an end, by the octets that are left (`Cursor.exists_runs`), and to one end only (`Cursor.Runs.unique`).

Key definitions: `Cursor.Runs`, `Cursor.Call.Safe`. Key theorem: `Decoder.cursor_is_safe`.
-/

namespace SlotRouter
namespace Frame

/-- A place in the octets, and how many arrays are open there. -/
structure Cursor where
  pos : Nat
  depth : Nat
  deriving DecidableEq

namespace Cursor

/-- Why no frame is found. -/
inductive Stop where
  | incomplete
  | faulty (fault : Fault)
  /-- An index, a slice or a count is out of range. -/
  | outOfRange

/-- The octets from one place up to another. -/
def slice (data : Bytes) (first last : Nat) : Except Stop Bytes :=
  if first ≤ last ∧ last ≤ data.length then .ok ((data.take last).drop first) else .error .outOfRange

/-- The octets up to the next line end, and the place behind it. -/
def line (data : Bytes) (pos : Nat) : Except Stop (Bytes × Nat) := do
  let rest ← slice data pos data.length
  match splitLine rest with
  | none => .error .incomplete
  | some (before, _) =>
    let body ← slice data pos (pos + before.length)
    return (body, pos + before.length + 2)

/-- What a call has come to before it calls others. -/
inductive Head where
  | ends (ending : Except Stop Frame)
  /-- An array was opened, and so many items are to be read. -/
  | opens (count : Nat)

/-- A payload and its line end. The sum that is compared stays below `2 ^ 64`, as no announced length is above
`2 ^ 63 - 1` and no memory holds as many octets. -/
def payload (data : Bytes) (length : Nat) (c : Cursor) : Except Stop Frame × Cursor :=
  if data.length < c.pos + length + 2 then (.error .incomplete, c)
  else
    match slice data c.pos (c.pos + length), slice data (c.pos + length) (c.pos + length + 2) with
    | .ok octets, .ok terminator =>
      if terminator = Bytes.crlf then (.ok (.bulk octets), { c with pos := c.pos + length + 2 })
      else (.error (.faulty .payloadUnterminated), c)
    | _, _ => (.error .outOfRange, c)

/-- Opens an array, if another one is allowed. -/
def openArray (limits : Limits) (count : Nat) (c : Cursor) : Head × Cursor :=
  if c.depth ≥ limits.depth then (.ends (.error (.faulty .arrayTooDeep)), c)
  else (.opens count, { c with depth := c.depth + 1 })

/-- What follows the line `tag`, `body`. -/
def afterLine (limits : Limits) (data : Bytes) (tag : UInt8) (body : Bytes) (c : Cursor) : Head × Cursor :=
  if tag = 43 then (.ends (.ok (.simple body)), c)
  else if tag = 45 then (.ends (.ok (.error body)), c)
  else if tag = 58 then
    match Decimal.int64? body with
    | some n => (.ends (.ok (.integer n)), c)
    | none => (.ends (.error (.faulty (.malformedInteger body))), c)
  else if tag = 36 then
    match Decimal.int64? body with
    | some n =>
      if n < 0 then (.ends (.ok .nilBulk), c)
      else if n.toInt.toNat > limits.size then (.ends (.error (.faulty .payloadTooLarge)), c)
      else
        let (ending, c) := payload data n.toInt.toNat c
        (.ends ending, c)
    | none => (.ends (.error (.faulty (.malformedInteger body))), c)
  else if tag = 42 then
    match Decimal.int64? body with
    | some n =>
      if n < 0 then (.ends (.ok .nilArray), c)
      else if n.toInt.toNat > limits.size / 4 then (.ends (.error (.faulty .arrayTooLarge)), c)
      else openArray limits n.toInt.toNat c
    | none => (.ends (.error (.faulty (.malformedInteger body))), c)
  else (.ends (.error (.faulty (.unknownTag tag))), c)

/-- The first line of a frame, and the payload if it announces one. -/
def head (limits : Limits) (data : Bytes) (c : Cursor) : Head × Cursor :=
  match data[c.pos]? with
  | none => (.ends (.error .incomplete), c)
  | some tag =>
    match line data (c.pos + 1) with
    | .error stop => (.ends (.error stop), { c with pos := c.pos + 1 })
    | .ok (body, next) => afterLine limits data tag body { c with pos := next }

/-- Closes the array of which the items were read. -/
def close : Except Stop (List Frame) → Cursor → Except Stop Frame × Cursor
  | .ok items, ⟨pos, depth + 1⟩ => (.ok (.array items), ⟨pos, depth⟩)
  | .ok _, ⟨pos, 0⟩ => (.error .outOfRange, ⟨pos, 0⟩)
  | .error stop, c => (.error stop, c)

/-- One call of the reader. -/
structure Call where
  start : Cursor
  /-- Where it calls others, if it does. -/
  inner : Cursor
  stop : Cursor
  ending : Except Stop Frame

mutual

/-- A call at a place, what it comes to, the place where it ends, and the call with all that it makes. -/
inductive Runs (limits : Limits) (data : Bytes) : Cursor → Except Stop Frame → Cursor → List Call → Prop where
  | flat {c c' : Cursor} {ending : Except Stop Frame} (h : head limits data c = (.ends ending, c')) :
      Runs limits data c ending c' [⟨c, c', c', ending⟩]
  | array {c c₁ c₂ c' : Cursor} {count : Nat} {items : Except Stop (List Frame)} {ending : Except Stop Frame}
      {calls : List Call} (h : head limits data c = (.opens count, c₁)) (loop : Loops limits data count c₁ items c₂ calls)
      (closed : close items c₂ = (ending, c')) : Runs limits data c ending c' (⟨c, c₁, c', ending⟩ :: calls)

/-- Calls for so many items, one after the other, up to the first that finds no frame. -/
inductive Loops (limits : Limits) (data : Bytes) :
    Nat → Cursor → Except Stop (List Frame) → Cursor → List Call → Prop where
  | nil {c : Cursor} : Loops limits data 0 c (.ok []) c []
  | stopped {count : Nat} {c c' : Cursor} {stop : Stop} {calls : List Call}
      (first : Runs limits data c (.error stop) c' calls) : Loops limits data (count + 1) c (.error stop) c' calls
  | next {count : Nat} {c c₁ c' : Cursor} {f : Frame} {items : Except Stop (List Frame)} {calls calls' : List Call}
      (first : Runs limits data c (.ok f) c₁ calls) (others : Loops limits data count c₁ items c' calls') :
      Loops limits data (count + 1) c (items.map (f :: ·)) c' (calls ++ calls')

end

/-- What has been read, if nothing was out of range. -/
def told {α : Type} (data : Bytes) (pos : Nat) : Except Stop α → Option (Parsed α)
  | .ok a => some (.done a (data.drop pos))
  | .error .incomplete => some .incomplete
  | .error (.faulty fault) => some (.faulty fault)
  | .error .outOfRange => none

/-- A call keeps inside the octets and the allowance for arrays, is never out of range, tells what `Frame.parse`
tells, and if it yields a frame it has passed three octets and closed what it opened. -/
structure Call.Safe (limits : Limits) (data : Bytes) (call : Call) : Prop where
  inside : call.start.pos ≤ call.inner.pos ∧ call.inner.pos ≤ call.stop.pos ∧ call.stop.pos ≤ data.length
  shallow : call.start.depth ≤ limits.depth ∧ call.inner.depth ≤ limits.depth ∧ call.stop.depth ≤ limits.depth
  inRange : call.ending ≠ .error .outOfRange
  tells : told data call.stop.pos call.ending =
    some (parse limits.size (limits.depth - call.start.depth) (data.drop call.start.pos))
  advances : ∀ f, call.ending = .ok f → call.start.pos + 3 ≤ call.stop.pos
  restores : ∀ f, call.ending = .ok f → call.stop.depth = call.start.depth

variable {limits : Limits} {data body rest : Bytes} {c c' c₁ : Cursor} {first last pos count length : Nat}
  {ending : Except Stop Frame} {calls : List Call} {f : Frame}

/-! ### Slices and lines -/

theorem slice_of_le (hle : first ≤ last) (hlast : last ≤ data.length) :
    slice data first last = .ok ((data.drop first).take (last - first)) := by
  rw [slice, if_pos ⟨hle, hlast⟩, List.drop_take]

theorem slice_to_end (hle : first ≤ data.length) : slice data first data.length = .ok (data.drop first) := by
  rw [slice_of_le hle (Nat.le_refl _), List.take_of_length_le (by rw [List.length_drop])]

/-- A line of which the end has not come. -/
theorem line_of_none (hpos : pos ≤ data.length) (h : splitLine (data.drop pos) = none) :
    line data pos = .error .incomplete := by
  unfold line
  rw [slice_to_end hpos]
  show (match splitLine (data.drop pos) with
    | none => Except.error Stop.incomplete
    | some (before, _) => _) = _
  rw [h]

/-- A line is inside the octets, and so is its end. -/
theorem line_of_some (hpos : pos ≤ data.length) (h : splitLine (data.drop pos) = some (body, rest)) :
    line data pos = .ok (body, pos + body.length + 2) ∧ pos + body.length + 2 ≤ data.length ∧
      rest = data.drop (pos + body.length + 2) := by
  obtain ⟨-, hform⟩ := of_splitLine h
  have hlength : data.length - pos = body.length + 2 + rest.length := by
    rw [← List.length_drop, hform, List.length_append, List.length_append]
    rfl
  have hbody : slice data pos (pos + body.length) = .ok body := by
    rw [slice_of_le (Nat.le_add_right _ _) (by omega), hform, Nat.add_sub_cancel_left, List.append_assoc,
      List.take_left]
  refine ⟨?_, by omega, ?_⟩
  · unfold line
    rw [slice_to_end hpos]
    show (match splitLine (data.drop pos) with
      | none => Except.error Stop.incomplete
      | some (before, _) => _) = _
    rw [h]
    dsimp only
    rw [hbody]
    rfl
  · rw [Nat.add_assoc, ← List.drop_drop, hform, List.drop_append]
    simp [Bytes.crlf]

/-! ### The head of a call -/

/-- Where none is found, all are as they should be. -/
theorem none_found {α : Type} {stop : Stop} {p : α → Prop} : ∀ a, (.error stop : Except Stop α) = .ok a → p a := nofun

/-- What an array of the items is, or why there is none. -/
def arrayOf : Parsed (List Frame) → Parsed Frame
  | .done items rest => .done (.array items) rest
  | .incomplete => .incomplete
  | .faulty fault => .faulty fault

/-- What a call can come to before it calls others, where `read` is to be read. -/
inductive Opens (limits : Limits) (data : Bytes) (c : Cursor) (read : Parsed Frame) : Head × Cursor → Prop where
  | ends {ending : Except Stop Frame} {pos : Nat} (forward : c.pos ≤ pos) (inside : pos ≤ data.length)
      (far : ∀ f, ending = .ok f → c.pos + 3 ≤ pos) (tells : told data pos ending = some read) :
      Opens limits data c read (.ends ending, ⟨pos, c.depth⟩)
  | opens {count pos : Nat} (far : c.pos + 3 ≤ pos) (inside : pos ≤ data.length) (room : c.depth < limits.depth)
      (tells : read = arrayOf (parseItems (parse limits.size (limits.depth - (c.depth + 1))) count (data.drop pos))) :
      Opens limits data c read (.opens count, ⟨pos, c.depth + 1⟩)

theorem parsePayload_of_short (h : rest.length < length + 2) : parsePayload length rest = .incomplete := by
  have hfew : (rest.drop length).length < 2 := by
    rw [List.length_drop]
    omega
  unfold parsePayload
  split
  · rename_i heq
    rw [heq, List.length_cons, List.length_cons] at hfew
    omega
  · rename_i heq
    rw [heq, List.length_cons, List.length_cons] at hfew
    omega
  · rfl

theorem parsePayload_of_long {a b : UInt8} (h : rest.drop length = a :: b :: rest.drop (length + 2)) :
    parsePayload length rest = if [a, b] = Bytes.crlf then .done (.bulk (rest.take length)) (rest.drop (length + 2))
      else .faulty .payloadUnterminated := by
  unfold parsePayload
  rw [h]
  split_ifs with hend
  · obtain ⟨rfl, rfl⟩ : a = 13 ∧ b = 10 := by simpa [Bytes.crlf] using hend
    rfl
  · split
    · rename_i heq
      obtain ⟨rfl, htail⟩ := List.cons.inj heq
      obtain ⟨rfl, -⟩ := List.cons.inj htail
      exact absurd rfl hend
    · rfl
    · rename_i hshort
      exact absurd rfl (hshort a b _)

/-- A payload is taken by slices as it is taken from the front. -/
theorem payload_told (hpos : pos ≤ data.length) (length depth : Nat) : ∃ ending pos',
    payload data length ⟨pos, depth⟩ = (ending, ⟨pos', depth⟩) ∧ pos ≤ pos' ∧ pos' ≤ data.length ∧
      told data pos' ending = some (parsePayload length (data.drop pos)) := by
  unfold payload
  dsimp only
  split_ifs with hshort
  · refine ⟨_, pos, rfl, Nat.le_refl _, hpos, ?_⟩
    rw [parsePayload_of_short (by rw [List.length_drop]; omega)]
    rfl
  · have hlong : pos + length + 2 ≤ data.length := Nat.le_of_not_lt hshort
    obtain ⟨a, b, hend⟩ : ∃ a b, data.drop (pos + length) = a :: b :: data.drop (pos + length + 2) := by
      refine ⟨data[pos + length], data[pos + length + 1], ?_⟩
      rw [List.drop_eq_getElem_cons (by omega), List.drop_eq_getElem_cons (by omega)]
    have hread : (data.drop pos).drop length = a :: b :: (data.drop pos).drop (length + 2) := by
      rw [List.drop_drop, List.drop_drop, hend, Nat.add_assoc]
    have hterminator : slice data (pos + length) (pos + length + 2) = .ok [a, b] := by
      rw [slice_of_le (Nat.le_add_right _ _) hlong, hend, Nat.add_sub_cancel_left]
      rfl
    rw [slice_of_le (Nat.le_add_right _ _) (by omega), hterminator, parsePayload_of_long hread, List.drop_drop,
      Nat.add_sub_cancel_left]
    dsimp only
    split_ifs with hclosed
    · exact ⟨_, pos + length + 2, rfl, by omega, hlong, rfl⟩
    · exact ⟨_, pos, rfl, Nat.le_refl _, hpos, rfl⟩

/-- What a line says is to follow is done with the cursor as it is done from the front. -/
theorem afterLine_opens {next : Nat} (far : c.pos + 3 ≤ next) (inside : next ≤ data.length) (tag : UInt8) (body : Bytes) :
    Opens limits data c
      (parseAfterLine limits.size (itemReader limits.size (limits.depth - c.depth)) tag body (data.drop next))
      (afterLine limits data tag body ⟨next, c.depth⟩) := by
  have hends {ending : Except Stop Frame} {read : Parsed Frame} (htells : told data next ending = some read) :
      Opens limits data c read (.ends ending, ⟨next, c.depth⟩) := .ends (by omega) inside (fun _ _ => far) htells
  unfold parseAfterLine afterLine
  split_ifs with h43 h45 h58 h36 h42
  · exact hends rfl
  · exact hends rfl
  · cases Decimal.int64? body with
    | some n => exact hends rfl
    | none => exact hends rfl
  · cases Decimal.int64? body with
    | some n =>
      dsimp only
      split_ifs with hneg hbig
      · exact hends rfl
      · exact hends rfl
      · obtain ⟨ending, pos, heq, hle, hin, htells⟩ := payload_told inside n.toInt.toNat c.depth
        rw [heq]
        exact .ends (by omega) hin (fun _ _ => by omega) htells
    | none => exact hends rfl
  · cases Decimal.int64? body with
    | some n =>
      dsimp only
      split_ifs with hneg hbig
      · exact hends rfl
      · exact hends rfl
      · unfold openArray
        split_ifs with hdeep
        · have hnone : limits.depth - c.depth = 0 := Nat.sub_eq_zero_of_le hdeep
          rw [hnone]
          exact hends rfl
        · have hroom : c.depth < limits.depth := Nat.lt_of_not_le hdeep
          have hsome : limits.depth - c.depth = limits.depth - (c.depth + 1) + 1 := by omega
          refine .opens far inside hroom ?_
          rw [hsome]
          rfl
    | none => exact hends rfl
  · exact hends rfl

/-- **What a call comes to before it calls others** is inside the octets and tells what is to be read there. -/
theorem head_opens (limits : Limits) (hpos : c.pos ≤ data.length) :
    Opens limits data c (parse limits.size (limits.depth - c.depth) (data.drop c.pos)) (head limits data c) := by
  unfold head
  cases htag : data[c.pos]? with
  | none =>
    have hend : data.length ≤ c.pos := List.getElem?_eq_none_iff.1 htag
    rw [List.drop_eq_nil_of_le hend, parse_nil]
    exact .ends (Nat.le_refl _) hpos none_found rfl
  | some tag =>
    obtain ⟨hlt, rfl⟩ := List.getElem?_eq_some_iff.1 htag
    rw [List.drop_eq_getElem_cons hlt]
    cases hsplit : splitLine (data.drop (c.pos + 1)) with
    | none =>
      have hread : parse limits.size (limits.depth - c.depth) (data[c.pos] :: data.drop (c.pos + 1)) = .incomplete := by
        unfold parse
        rw [hsplit]
      dsimp only
      rw [line_of_none hlt hsplit, hread]
      exact .ends (Nat.le_succ _) hlt none_found rfl
    | some line =>
      obtain ⟨body, rest⟩ := line
      obtain ⟨hline, hinside, rfl⟩ := line_of_some hlt hsplit
      dsimp only
      rw [hline, parse_cons _ hsplit]
      exact afterLine_opens (by omega) hinside _ _

theorem Opens.inside {read : Parsed Frame} (h : Opens limits data c read (.opens count, c₁)) :
    c.pos < c₁.pos ∧ c₁.pos ≤ data.length ∧ c₁.depth ≤ limits.depth := by
  cases h with
  | opens far inside room tells => exact ⟨by dsimp only; omega, inside, room⟩

/-! ### What a call and a loop do -/

/-- What is known of calls that begin at `c`, end at `c'` and come to `ending`, where `read` is to be read. Every
call but one that finds no frame has passed three octets of its own. -/
structure Sound {α : Type} (limits : Limits) (data : Bytes) (c : Cursor) (ending : Except Stop α) (c' : Cursor)
    (calls : List Call) (read : Parsed α) : Prop where
  forward : c.pos ≤ c'.pos
  inside : c'.pos ≤ data.length
  shallow : c'.depth ≤ limits.depth
  tells : told data c'.pos ending = some read
  restores : ∀ a, ending = .ok a → c'.depth = c.depth
  passed : ∀ a, ending = .ok a → c.pos + 3 * calls.length ≤ c'.pos
  spent : c.pos + 3 * calls.length ≤ data.length + 3
  safe : ∀ call ∈ calls, call.Safe limits data

variable {items : Except Stop (List Frame)} {read : Parsed (List Frame)} {c₂ : Cursor}

theorem ne_outOfRange_of_told {α : Type} {ending : Except Stop α} {read : Parsed α}
    (h : told data pos ending = some read) : ending ≠ .error .outOfRange := by
  rintro rfl
  cases h

/-- If nothing was out of range and none was found, more is needed or there is a fault. -/
theorem of_told_error {α : Type} {stop : Stop} {read : Parsed α}
    (h : told data pos (.error stop : Except Stop α) = some read) :
    (read = .incomplete ∧ stop = .incomplete) ∨ ∃ fault, read = .faulty fault ∧ stop = .faulty fault := by
  cases stop with
  | incomplete => exact .inl ⟨(Option.some.inj h).symm, rfl⟩
  | faulty fault => exact .inr ⟨fault, (Option.some.inj h).symm, rfl⟩
  | outOfRange => cases h

/-- A call that makes no others. -/
theorem Sound.flat (hdepth : c.depth ≤ limits.depth)
    (h : Opens limits data c (parse limits.size (limits.depth - c.depth) (data.drop c.pos)) (.ends ending, c')) :
    Sound limits data c ending c' [⟨c, c', c', ending⟩]
      (parse limits.size (limits.depth - c.depth) (data.drop c.pos)) := by
  cases h with
  | @ends _ pos forward inside far tells =>
    refine ⟨forward, inside, hdepth, tells, fun _ _ => rfl, fun f hf => far f hf, ?_, ?_⟩
    · show c.pos + 3 ≤ data.length + 3
      omega
    · intro call hcall
      obtain rfl := List.mem_singleton.1 hcall
      exact ⟨⟨forward, Nat.le_refl _, inside⟩, ⟨hdepth, hdepth, hdepth⟩, ne_outOfRange_of_told tells, tells, far,
        fun _ _ => rfl⟩

/-- Closing an array leaves the cursor where it is, and tells of the array what was told of its items. -/
theorem close_told (hloop : Sound limits data ⟨pos, c.depth + 1⟩ items c₂ calls read)
    (hclosed : close items c₂ = (ending, c')) : c'.pos = c₂.pos ∧ c'.depth ≤ limits.depth ∧
      told data c'.pos ending = some (arrayOf read) ∧
      ∀ f, ending = .ok f → c'.depth = c.depth ∧ ∃ fs, items = .ok fs := by
  have htells := hloop.tells
  have hshallow := hloop.shallow
  cases items with
  | ok fs =>
    obtain ⟨pos₂, depth₂⟩ := c₂
    obtain rfl : depth₂ = c.depth + 1 := hloop.restores fs rfl
    obtain ⟨rfl, rfl⟩ := Prod.mk.inj hclosed
    obtain rfl := Option.some.inj htells
    exact ⟨rfl, Nat.le_of_succ_le hshallow, rfl, fun _ _ => ⟨rfl, fs, rfl⟩⟩
  | error stop =>
    obtain ⟨rfl, rfl⟩ := Prod.mk.inj hclosed
    refine ⟨rfl, hshallow, ?_, none_found⟩
    rcases of_told_error htells with ⟨rfl, rfl⟩ | ⟨fault, rfl, rfl⟩
    · rfl
    · rfl

/-- A call that opens an array. -/
theorem Sound.array (hdepth : c.depth ≤ limits.depth)
    (h : Opens limits data c (parse limits.size (limits.depth - c.depth) (data.drop c.pos)) (.opens count, c₁))
    (hloop : Sound limits data c₁ items c₂ calls
      (parseItems (parse limits.size (limits.depth - c₁.depth)) count (data.drop c₁.pos)))
    (hclosed : close items c₂ = (ending, c')) :
    Sound limits data c ending c' (⟨c, c₁, c', ending⟩ :: calls)
      (parse limits.size (limits.depth - c.depth) (data.drop c.pos)) := by
  cases h with
  | @opens _ pos far inside room tells =>
    obtain ⟨hpos, hshallow, htells, hclean⟩ := close_told hloop hclosed
    have hforward : pos ≤ c₂.pos := hloop.forward
    have hinside := hloop.inside
    have hspent : pos + 3 * calls.length ≤ data.length + 3 := hloop.spent
    have hfar : c.pos + 3 ≤ c'.pos := by omega
    rw [← tells] at htells
    -- The line that opens the array is three octets at least and stands for this call, the items stand for theirs.
    refine ⟨by omega, by omega, hshallow, htells, fun f hf => (hclean f hf).1, fun f hf => ?_, ?_, fun call hcall => ?_⟩
    · obtain ⟨-, fs, hfs⟩ := hclean f hf
      have hpassed : pos + 3 * calls.length ≤ c₂.pos := hloop.passed fs hfs
      rw [List.length_cons]
      omega
    · rw [List.length_cons]
      omega
    · rcases List.mem_cons.1 hcall with rfl | hcall
      · exact ⟨⟨by show c.pos ≤ pos; omega, by show pos ≤ c'.pos; omega, by show c'.pos ≤ data.length; omega⟩,
          ⟨hdepth, room, hshallow⟩, ne_outOfRange_of_told htells, htells, fun _ _ => hfar, fun f hf => (hclean f hf).1⟩
      · exact hloop.safe call hcall

theorem Sound.stopped {stop : Stop} {item : Bytes → Parsed Frame} {bs : Bytes}
    (h : Sound limits data c (.error stop : Except Stop Frame) c' calls (item bs)) (count : Nat) :
    Sound limits data c (.error stop : Except Stop (List Frame)) c' calls (parseItems item (count + 1) bs) := by
  have htells : told data c'.pos (.error stop : Except Stop (List Frame)) = some (parseItems item (count + 1) bs) := by
    rcases of_told_error h.tells with ⟨hitem, rfl⟩ | ⟨fault, hitem, rfl⟩
    · rw [parseItems, hitem]
      rfl
    · rw [parseItems, hitem]
      rfl
  exact ⟨h.forward, h.inside, h.shallow, htells, none_found, none_found, h.spent, h.safe⟩

theorem Sound.next {item : Bytes → Parsed Frame} {bs : Bytes} {calls' : List Call}
    (hfirst : Sound limits data c (.ok f) c₁ calls (item bs))
    (hothers : Sound limits data c₁ items c' calls' (parseItems item count (data.drop c₁.pos))) :
    Sound limits data c (items.map (f :: ·)) c' (calls ++ calls') (parseItems item (count + 1) bs) := by
  have hitem : item bs = .done f (data.drop c₁.pos) := (Option.some.inj hfirst.tells).symm
  have hpassed := hfirst.passed f rfl
  have hdepth := hfirst.restores f rfl
  have hlength : (calls ++ calls').length = calls.length + calls'.length := List.length_append
  have hspent : c.pos + 3 * (calls ++ calls').length ≤ data.length + 3 := by
    have hlater := hothers.spent
    omega
  have hsafe : ∀ call ∈ calls ++ calls', call.Safe limits data :=
    List.forall_mem_append.2 ⟨hfirst.safe, hothers.safe⟩
  have hread := hothers.tells
  cases items with
  | ok fs =>
    have hrest : parseItems item count (data.drop c₁.pos) = .done fs (data.drop c'.pos) := (Option.some.inj hread).symm
    have hlater := hothers.passed fs rfl
    refine ⟨hfirst.forward.trans hothers.forward, hothers.inside, hothers.shallow, ?_,
      fun _ _ => (hothers.restores fs rfl).trans hdepth, fun _ _ => by omega, hspent, hsafe⟩
    rw [parseItems, hitem]
    dsimp only
    rw [hrest]
    rfl
  | error stop =>
    refine ⟨hfirst.forward.trans hothers.forward, hothers.inside, hothers.shallow, ?_, none_found, none_found, hspent, hsafe⟩
    rw [parseItems, hitem]
    dsimp only
    rcases of_told_error hread with ⟨hrest, rfl⟩ | ⟨fault, hrest, rfl⟩
    · rw [hrest]
      rfl
    · rw [hrest]
      rfl

mutual

/-- **A call is sound**, by induction on the calls that it makes. -/
theorem Runs.sound : ∀ {c c' : Cursor} {ending : Except Stop Frame} {calls : List Call},
    Runs limits data c ending c' calls → c.pos ≤ data.length → c.depth ≤ limits.depth →
      Sound limits data c ending c' calls (parse limits.size (limits.depth - c.depth) (data.drop c.pos))
  | c, _, _, _, .flat h, hpos, hdepth => by
    have hopens := head_opens limits hpos
    rw [h] at hopens
    exact .flat hdepth hopens
  | c, _, _, _, .array h loop closed, hpos, hdepth => by
    have hopens := head_opens limits hpos
    rw [h] at hopens
    obtain ⟨-, hinside, hroom⟩ := hopens.inside
    exact .array hdepth hopens (loop.sound hinside hroom) closed

theorem Loops.sound : ∀ {count : Nat} {c c' : Cursor} {items : Except Stop (List Frame)} {calls : List Call},
    Loops limits data count c items c' calls → c.pos ≤ data.length → c.depth ≤ limits.depth →
      Sound limits data c items c' calls
        (parseItems (parse limits.size (limits.depth - c.depth)) count (data.drop c.pos))
  | _, c, _, _, _, .nil, hpos, hdepth => by
    refine ⟨Nat.le_refl _, hpos, hdepth, rfl, fun _ _ => rfl, fun _ _ => Nat.le_refl _, ?_, List.forall_mem_nil _⟩
    exact hpos.trans (Nat.le_add_right _ _)
  | _, c, _, _, _, .stopped first, hpos, hdepth => (first.sound hpos hdepth).stopped _
  | _, c, _, _, _, .next first others, hpos, hdepth => by
    have hfirst := first.sound hpos hdepth
    have hothers := others.sound hfirst.inside hfirst.shallow
    -- The first item has closed what it opened, so the others are read with the same allowance.
    rw [hfirst.restores _ rfl] at hothers
    exact hfirst.next hothers

end

/-! ### Every call ends -/

/-- If a call ends wherever more octets have been passed, so does a loop. -/
theorem exists_loops {low : Nat} (hruns : ∀ c : Cursor, low ≤ c.pos → c.pos ≤ data.length → c.depth ≤ limits.depth →
      ∃ ending c' calls, Runs limits data c ending c' calls) (count : Nat) :
    ∀ c : Cursor, low ≤ c.pos → c.pos ≤ data.length → c.depth ≤ limits.depth →
      ∃ items c' calls, Loops limits data count c items c' calls := by
  induction count with
  | zero => exact fun c _ _ _ => ⟨_, c, [], .nil⟩
  | succ count ih =>
    intro c hlow hpos hdepth
    obtain ⟨ending, c₁, calls, first⟩ := hruns c hlow hpos hdepth
    have hfirst := first.sound hpos hdepth
    cases ending with
    | error stop => exact ⟨_, c₁, calls, .stopped first⟩
    | ok f =>
      obtain ⟨items, c', calls', others⟩ := ih c₁ (hlow.trans hfirst.forward) hfirst.inside hfirst.shallow
      exact ⟨_, c', calls ++ calls', .next first others⟩

/-- **Every call comes to an end**, by induction on the octets that are left. -/
theorem exists_runs (hpos : c.pos ≤ data.length) (hdepth : c.depth ≤ limits.depth) :
    ∃ ending c' calls, Runs limits data c ending c' calls := by
  induction hleft : data.length - c.pos using Nat.strongRecOn generalizing c with
  | ind left ih =>
    have hopens := head_opens limits hpos
    cases h : head limits data c with
    | mk what c₁ =>
      cases what with
      | ends ending => exact ⟨ending, c₁, _, .flat h⟩
      | opens count =>
        rw [h] at hopens
        obtain ⟨hfar, hinside, hroom⟩ := hopens.inside
        -- Every item begins behind the line that opened the array, so there are fewer octets left for it.
        obtain ⟨items, c₂, calls, loop⟩ := exists_loops
          (fun c' (hlow : c₁.pos ≤ c'.pos) hpos' hdepth' => ih (data.length - c'.pos) (by omega) hpos' hdepth' rfl) count c₁
          (Nat.le_refl _) hinside hroom
        exact ⟨_, _, _, .array h loop rfl⟩

mutual

/-- **A call comes to one end only**, and makes the same calls. -/
theorem Runs.unique : ∀ {c c₁ c₂ : Cursor} {ending₁ ending₂ : Except Stop Frame} {calls₁ calls₂ : List Call},
    Runs limits data c ending₁ c₁ calls₁ → Runs limits data c ending₂ c₂ calls₂ →
      ending₁ = ending₂ ∧ c₁ = c₂ ∧ calls₁ = calls₂
  | _, _, _, _, _, _, _, .flat h, .flat h' => by
    cases h.symm.trans h'
    exact ⟨rfl, rfl, rfl⟩
  | _, _, _, _, _, _, _, .flat h, .array h' _ _ => by cases h.symm.trans h'
  | _, _, _, _, _, _, _, .array h _ _, .flat h' => by cases h.symm.trans h'
  | _, _, _, _, _, _, _, .array h loop closed, .array h' loop' closed' => by
    cases h.symm.trans h'
    obtain ⟨rfl, rfl, rfl⟩ := loop.unique loop'
    cases closed.symm.trans closed'
    exact ⟨rfl, rfl, rfl⟩

theorem Loops.unique : ∀ {count : Nat} {c c₁ c₂ : Cursor} {items₁ items₂ : Except Stop (List Frame)}
    {calls₁ calls₂ : List Call}, Loops limits data count c items₁ c₁ calls₁ →
      Loops limits data count c items₂ c₂ calls₂ → items₁ = items₂ ∧ c₁ = c₂ ∧ calls₁ = calls₂
  | _, _, _, _, _, _, _, _, .nil, .nil => ⟨rfl, rfl, rfl⟩
  | _, _, _, _, _, _, _, _, .stopped first, .stopped first' => by
    obtain ⟨hstop, rfl, rfl⟩ := first.unique first'
    cases hstop
    exact ⟨rfl, rfl, rfl⟩
  | _, _, _, _, _, _, _, _, .stopped first, .next first' _ => by cases (first.unique first').1
  | _, _, _, _, _, _, _, _, .next first _, .stopped first' => by cases (first.unique first').1
  | _, _, _, _, _, _, _, _, .next first others, .next first' others' => by
    obtain ⟨hframe, rfl, rfl⟩ := first.unique first'
    cases hframe
    obtain ⟨rfl, rfl, rfl⟩ := others.unique others'
    exact ⟨rfl, rfl, rfl⟩

end

end Cursor
end Frame

namespace Decoder

open SlotRouter.Frame SlotRouter.Frame.Cursor

/-- What an attempt to read a frame yields if the cursor ends so at `pos`, and nothing was out of range. -/
def settled (d : Decoder) (pos : Nat) : Except Stop Frame → Option (Outcome × Decoder)
  | .ok f => some (.frame f, { d with buffer := d.buffer.drop pos })
  | .error .incomplete => some (.incomplete, d)
  | .error (.faulty fault) => some (.faulty fault, d)
  | .error .outOfRange => none

/-- A decoder does what the cursor tells. -/
theorem settled_of_told {d : Decoder} {pos : Nat} {ending : Except Stop Frame} (hsize : d.buffer.length ≤ d.limits.size)
    (h : told d.buffer pos ending = some (parse d.limits.size d.limits.depth d.buffer)) :
    d.settled pos ending = some d.decode := by
  cases ending with
  | ok f =>
    rw [decode_of_done hsize (Option.some.inj h).symm]
    rfl
  | error stop =>
    rcases of_told_error h with ⟨hread, rfl⟩ | ⟨fault, hread, rfl⟩
    · rw [decode_of_incomplete hsize hread]
      rfl
    · rw [decode_of_faulty hsize hread]
      rfl

/-- **The cursor is safe and goes forward on any octets.** Under any limits, the reader that is called at the first
octet with no array open comes to exactly one end, and makes at most a third as many calls as there are octets,
and one more. Each of these calls stays inside the octets and the allowance for arrays, thirty-two of them if nothing
else is said, and takes no slice out of range; one that yields a frame has passed three octets or more and has as
many arrays open as before it. What the reader finds is what the decoder yields, and the place where it ends is how
far the decoder goes. -/
theorem cursor_is_safe (d : Decoder) : ∃ ending stop calls,
    (∀ ending' stop' calls', Runs d.limits d.buffer ⟨0, 0⟩ ending' stop' calls' ↔
      ending' = ending ∧ stop' = stop ∧ calls' = calls) ∧
    calls.length ≤ d.buffer.length / 3 + 1 ∧ (∀ call ∈ calls, call.Safe d.limits d.buffer) ∧
    (d.buffer.length ≤ d.limits.size → d.settled stop.pos ending = some d.decode) := by
  have hinside : (⟨0, 0⟩ : Cursor).pos ≤ d.buffer.length := Nat.zero_le _
  have hshallow : (⟨0, 0⟩ : Cursor).depth ≤ d.limits.depth := Nat.zero_le _
  obtain ⟨ending, stop, calls, hruns⟩ := exists_runs hinside hshallow
  have hsound := hruns.sound hinside hshallow
  refine ⟨ending, stop, calls, fun ending' stop' calls' => ⟨fun h => h.unique hruns, ?_⟩, ?_, hsound.safe,
    fun hsize => settled_of_told hsize hsound.tells⟩
  · rintro ⟨rfl, rfl, rfl⟩
    exact hruns
  · have hspent : 0 + 3 * calls.length ≤ d.buffer.length + 3 := hsound.spent
    omega

/-- Nine items are announced and two have come. The array, its two items and the one that is awaited make four
calls on ten octets, and no more are possible. -/
theorem cursor_is_safe_awaiting : ∃ calls : List Call,
    Runs {} (Bytes.ofText "*9\r\n+\r\n+\r\n") ⟨0, 0⟩ (.error .incomplete) ⟨10, 1⟩ calls ∧
    calls.length = 4 ∧ 4 = (Bytes.ofText "*9\r\n+\r\n+\r\n").length / 3 + 1 ∧
    ∀ call ∈ calls, call.Safe {} (Bytes.ofText "*9\r\n+\r\n+\r\n") := by
  obtain ⟨ending, stop, calls, hruns, -, hsafe, -⟩ := cursor_is_safe ⟨{}, Bytes.ofText "*9\r\n+\r\n+\r\n"⟩
  have hrun : Runs {} (Bytes.ofText "*9\r\n+\r\n+\r\n") ⟨0, 0⟩ (.error .incomplete) ⟨10, 1⟩ _ :=
    .array rfl (.next (.flat rfl) (.next (.flat rfl) (.stopped (.flat rfl)))) rfl
  obtain ⟨-, -, rfl⟩ := (hruns _ _ _).1 hrun
  exact ⟨_, hrun, rfl, by decide, hsafe⟩

end Decoder
end SlotRouter
