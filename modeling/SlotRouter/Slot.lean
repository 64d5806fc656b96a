import SlotRouter.Error

/-!
# Slots

Keys are spread over 16384 slots. A key's slot is the checksum of its hash tag, or of the whole key if it has
none, modulo the number of slots. The hash tag is what stands between the first opening brace and the
first closing brace after it, unless that is nothing.

The checksum is a 16-bit cyclic redundancy check with the polynomial x¹⁶ + x¹² + x⁵ + 1 and initial value zero, most
significant bit first. `Crc16.checksum` takes an octet at a time from a table; `Crc16.remainder` is the definition by
division, a bit at a time.

A command may name several keys only if they are all in one slot. A glob pattern is anchored when its hash tag, and
everything before it, is literal: then every key that matches has that hash tag, and so the slot of the pattern.
-/

namespace SlotRouter

/-! ### The checksum of a key -/

namespace Crc16

/-- The polynomial without its leading term. -/
def polynomial : UInt16 := 0x1021

/-- Multiplies a remainder by x. -/
def shift (r : UInt16) : UInt16 :=
  if r &&& 0x8000 = 0 then r <<< 1 else (r <<< 1) ^^^ polynomial

/-- Multiplies a remainder by x⁸. -/
def shiftOctet (r : UInt16) : UInt16 :=
  shift (shift (shift (shift (shift (shift (shift (shift r)))))))

/-- The remainder of each octet multiplied by x¹⁶. -/
def table : Vector UInt16 256 := Vector.ofFn fun i => shiftOctet (UInt16.ofNat i.val <<< 8)

/-- The remainder after one more octet. -/
def step (r : UInt16) (b : UInt8) : UInt16 :=
  (r <<< 8) ^^^ table.get ⟨((r >>> 8).toUInt8 ^^^ b).toNat, UInt8.toNat_lt _⟩

/-- The checksum of the octets. -/
def checksum (bs : Bytes) : UInt16 := bs.foldl step 0

/-- The bits of an octet, most significant first. -/
def bits (b : UInt8) : List Bool :=
  [b &&& 128 != 0, b &&& 64 != 0, b &&& 32 != 0, b &&& 16 != 0,
   b &&& 8 != 0, b &&& 4 != 0, b &&& 2 != 0, b &&& 1 != 0]

/-- Brings one more bit of the message into the division. -/
def divideBit (r : UInt16) (bit : Bool) : UInt16 :=
  shift (if bit then r ^^^ 0x8000 else r)

/-- The remainder of the message times x¹⁶ on division by the polynomial, a bit at a time. -/
def remainder (bs : Bytes) : UInt16 := (bs.flatMap bits).foldl divideBit 0

end Crc16

/-! ### The slot of a key -/

/-- The number of slots. -/
def slotCount : Nat := 16384

namespace Slot

/-- The opening brace of a hash tag. -/
def opening : UInt8 := 123

/-- The closing brace of a hash tag. -/
def closing : UInt8 := 125

/-- What stands before the first `b`, and what stands after it, if there is one. -/
def cutAt (b : UInt8) (bs : Bytes) : Bytes × Option Bytes :=
  (bs.takeWhile (· != b),
    match bs.dropWhile (· != b) with
    | [] => none
    | _ :: rest => some rest)

/-- The hash tag of a key. -/
def tag? (key : Bytes) : Option Bytes :=
  match (cutAt opening key).2 with
  | none => none
  | some rest =>
    match cutAt closing rest with
    | ([], _) | (_, none) => none
    | (tag, some _) => some tag

/-- The part of a key that decides its slot. -/
def hashed (key : Bytes) : Bytes := (tag? key).getD key

/-- The slot of a key. -/
def ofKey (key : Bytes) : UInt16 := Crc16.checksum (hashed key) % 16384

/-- Every key has a slot of the cluster. -/
theorem ofKey_lt (key : Bytes) : (ofKey key).toNat < slotCount := by
  simp only [ofKey, slotCount, UInt16.toNat_mod]
  exact Nat.mod_lt _ (by decide)

/-! ### The slot of a set of keys -/

/-- The first of the keys that is not in the slot, as its own slot. -/
def stray? (slot : UInt16) (keys : List Bytes) : Option UInt16 :=
  (keys.map ofKey).find? (· != slot)

/-- The one slot of all the keys. -/
def common : List Bytes → Except Error UInt16
  | [] => .error (.invalidArgument .noKeys)
  | key :: keys =>
    match stray? (ofKey key) keys with
    | some other => .error (.crossSlot (ofKey key) other)
    | none => .ok (ofKey key)

/-- The keys of a command that writes `destination` and reads `sources`. -/
def mergeKeys (destination : Bytes) (sources : List Bytes) : List Bytes := destination :: sources

/-- The keys have a common slot exactly when there is a key and all are in that slot. -/
theorem common_eq_ok_iff {keys : List Bytes} {slot : UInt16} :
    common keys = .ok slot ↔ keys ≠ [] ∧ ∀ key ∈ keys, ofKey key = slot := by
  cases keys with
  | nil => simp [common]
  | cons key keys =>
    cases h : stray? (ofKey key) keys with
    | some other =>
      have hne := List.find?_some (p := (· != ofKey key)) h
      obtain ⟨k, hk, rfl⟩ := List.mem_map.1 (List.mem_of_find?_eq_some h)
      simp only [common, h, reduceCtorEq, false_iff, not_and]
      intro _ hall
      have h1 := hall key (List.mem_cons_self ..)
      have h2 := hall k (List.mem_cons_of_mem _ hk)
      simp [h1, h2] at hne
    | none =>
      have hall : ∀ k ∈ keys, ofKey k = ofKey key := by
        simpa [stray?, List.find?_eq_none] using h
      simp only [common, h, Except.ok.injEq, ne_eq, reduceCtorEq, not_false_eq_true, true_and,
        List.forall_mem_cons]
      exact ⟨fun hs => ⟨hs, fun k hk => (hall k hk).trans hs⟩, fun hs => hs.1⟩

/-! ### Patterns that stay in one slot -/

/-- The octets with a meaning in a glob pattern: `*`, `?`, `[` and `\`. -/
def isGlob (b : UInt8) : Bool := b == 42 || b == 63 || b == 91 || b == 92

/-- Whether the pattern has a literal hash tag after a literal start. -/
def isAnchored (pattern : Bytes) : Bool :=
  !(cutAt opening pattern).1.any isGlob &&
    match tag? pattern with
    | some tag => !tag.any isGlob
    | none => false

/-- The slot of all keys that match the pattern. -/
def ofPattern (pattern : Bytes) : Except Error UInt16 :=
  if isAnchored pattern then .ok (ofKey pattern)
  else .error (.routingUnsupported (.unanchored pattern))

/-- A pattern has a slot exactly when it is anchored. -/
theorem ofPattern_eq_ok_iff {pattern : Bytes} {slot : UInt16} :
    ofPattern pattern = .ok slot ↔ isAnchored pattern = true ∧ slot = ofKey pattern := by
  by_cases h : isAnchored pattern = true
  · simp only [ofPattern, h, if_true, Except.ok.injEq, true_and]
    exact eq_comm
  · simp [ofPattern, h]

end Slot
end SlotRouter
