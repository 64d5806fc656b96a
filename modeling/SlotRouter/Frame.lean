import SlotRouter.Bytes

/-!
# Frames

The values that a node and a client exchange. A frame is a line of text, an error line, an integer, a bulk
payload, an array of frames, or one of two ways of saying "nothing": a nil bulk and a nil array.
-/

namespace SlotRouter

/-- A value of the wire protocol. -/
inductive Frame where
  /-- A short text on one line. -/
  | simple (line : Bytes)
  /-- An error that a node reports on one line. -/
  | error (line : Bytes)
  | integer (value : Int64)
  /-- A payload of any octets. -/
  | bulk (payload : Bytes)
  | nilBulk
  | array (items : List Frame)
  | nilArray
  deriving Inhabited

namespace Frame

/-- A short text. -/
def ofText (s : String) : Frame := .simple (.ofText s)

/-- An error line with the given text. -/
def errorText (s : String) : Frame := .error (.ofText s)

/-- A payload that holds the given text. -/
def bulkText (s : String) : Frame := .bulk (.ofText s)

/-- The octets of a text or a payload. -/
def payload? : Frame → Option Bytes
  | .bulk payload => some payload
  | .simple line => some line
  | _ => none

/-- The items of an array. -/
def items? : Frame → Option (List Frame)
  | .array items => some items
  | _ => none

mutual

/-- Whether two frames are equal. -/
def same : Frame → Frame → Bool
  | .simple a, .simple b => a == b
  | .error a, .error b => a == b
  | .integer a, .integer b => a == b
  | .bulk a, .bulk b => a == b
  | .nilBulk, .nilBulk => true
  | .array a, .array b => sameItems a b
  | .nilArray, .nilArray => true
  | _, _ => false

/-- Whether two lists of frames are equal item by item. -/
def sameItems : List Frame → List Frame → Bool
  | [], [] => true
  | a :: as, b :: bs => same a b && sameItems as bs
  | _, _ => false

end

mutual

theorem eq_of_same : ∀ {a b : Frame}, same a b = true → a = b
  | .simple a, b, h | .error a, b, h | .integer a, b, h | .bulk a, b, h => by
    cases b <;> simp_all [same]
  | .nilBulk, b, h | .nilArray, b, h => by cases b <;> simp_all [same]
  | .array a, b, h => by
    cases b with
    | array b =>
      simp only [same] at h
      rw [eq_of_sameItems h]
    | _ => simp [same] at h

theorem eq_of_sameItems : ∀ {as bs : List Frame}, sameItems as bs = true → as = bs
  | [], [], _ => rfl
  | [], _ :: _, h | _ :: _, [], h => by simp [sameItems] at h
  | a :: as, b :: bs, h => by
    simp only [sameItems, Bool.and_eq_true] at h
    rw [eq_of_same h.1, eq_of_sameItems h.2]

end

mutual

theorem same_self : ∀ a : Frame, same a a = true
  | .simple _ | .error _ | .integer _ | .bulk _ | .nilBulk | .nilArray => by simp [same]
  | .array as => by simp [same, sameItems_self as]

theorem sameItems_self : ∀ as : List Frame, sameItems as as = true
  | [] => by simp [sameItems]
  | a :: as => by simp [sameItems, same_self a, sameItems_self as]

end

theorem same_iff {a b : Frame} : same a b = true ↔ a = b :=
  ⟨eq_of_same, fun h => h ▸ same_self a⟩

instance : DecidableEq Frame := fun a b => decidable_of_iff (same a b = true) same_iff

end Frame
end SlotRouter
