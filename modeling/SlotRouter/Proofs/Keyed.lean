import SlotRouter.Client
import SlotRouter.Proofs.Course

/-!
# Calls that name keys

A caller names the keys of a call, and the call does two things with them: it is routed by them, and it
puts them into its command. A node finds the keys of a command by the command's name
(`KeyRule.table`), and for some commands by a number among the arguments. What a node finds there are
the caller's keys, all of them and in his order (`KeyedCall.keys?_command`), and the route is the one
slot of these keys, if they have one (`KeyedCall.routing`).

Key definitions: `KeyRule`, `Command.keys?`, `KeyedCall`, `KeyedCall.Routing`. Key theorems:
`KeyedCall.keys?_command`, `KeyedCall.routing`, `KeyedCall.keys_on_the_wire`.
-/

namespace SlotRouter

/-! ### The keys of a command -/

/-- Where the keys of a command stand among its arguments. -/
inductive KeyRule where
  | first
  | all
  /-- Every other argument, from the first one on. -/
  | alternate
  | afterFirst
  /-- The second argument says how many of those behind it are keys; the first one may be a key too. -/
  | counted (stored : Bool)
  deriving DecidableEq

namespace KeyRule

/-- The rules by the names of the commands. -/
def table : List (String × KeyRule) :=
  [("GET", .first), ("SET", .first), ("DEL", .all), ("EXISTS", .all), ("INCR", .first), ("SADD", .first),
    ("SMEMBERS", .first), ("SDIFFSTORE", .all), ("SINTERSTORE", .all), ("SUNIONSTORE", .all),
    ("ZUNIONSTORE", .counted true), ("MGET", .all), ("MSET", .alternate), ("RENAME", .all),
    ("BITOP", .afterFirst), ("PFMERGE", .all), ("PFCOUNT", .all), ("EVAL", .counted false)]

/-- The rule for a command with the name. -/
def of? (name : Bytes) : Option KeyRule :=
  (table.find? fun entry => Bytes.ofText entry.1 == name).map Prod.snd

/-- Every other one of the arguments, if they come in pairs. -/
def others? : List Bytes → Option (List Bytes)
  | [] => some []
  | key :: _ :: rest => (others? rest).map (key :: ·)
  | [_] => none

/-- As many of the arguments as the number in front of them says. -/
def counted? (count : Bytes) (arguments : List Bytes) : Option (List Bytes) :=
  match Decimal.natural? count with
  | some n => if n ≤ arguments.length then some (arguments.take n) else none
  | none => none

/-- The arguments that are keys, unless there are too few. -/
def find? : KeyRule → List Bytes → Option (List Bytes)
  | .first, key :: _ => some [key]
  | .all, keys => some keys
  | .alternate, arguments => others? arguments
  | .afterFirst, _ :: keys => some keys
  | .counted stored, head :: count :: rest =>
    (counted? count rest).map fun keys => if stored then head :: keys else keys
  | _, _ => none

theorem others?_flatMap (pairs : List (Bytes × Bytes)) :
    others? (pairs.flatMap fun p => [p.1, p.2]) = some (pairs.map Prod.fst) := by
  induction pairs with
  | nil => rfl
  | cons p pairs ih =>
    show (others? (pairs.flatMap fun p => [p.1, p.2])).map (p.1 :: ·) = some (p.1 :: pairs.map Prod.fst)
    rw [ih, Option.map_some]

theorem counted?_digits (keys rest : List Bytes) :
    counted? (Decimal.digits keys.length) (keys ++ rest) = some keys := by
  unfold counted?
  rw [Decimal.natural?_digits]
  have hle : keys.length ≤ (keys ++ rest).length := by simp
  dsimp only
  rw [if_pos hle, List.take_left]

end KeyRule

/-- The keys that a node finds in a command. -/
def Command.keys? (c : Command) : Option (List Bytes) :=
  match KeyRule.of? c.name with
  | some rule => rule.find? c.arguments
  | none => none

/-! ### The slot of several keys -/

namespace Slot

/-- Keys are none, or have one slot, or have two. -/
theorem common_cases (keys : List Bytes) :
    (keys = [] ∧ common keys = .error (.invalidArgument .noKeys)) ∨
    (∃ slot, keys ≠ [] ∧ (∀ key ∈ keys, ofKey key = slot) ∧ common keys = .ok slot) ∨
    ∃ a ∈ keys, ∃ b ∈ keys, ofKey a ≠ ofKey b ∧ common keys = .error (.crossSlot (ofKey a) (ofKey b)) := by
  cases keys with
  | nil => exact .inl ⟨rfl, rfl⟩
  | cons key keys =>
    cases hstray : stray? (ofKey key) keys with
    | none =>
      have hok : common (key :: keys) = .ok (ofKey key) := by simp only [common, hstray]
      obtain ⟨hne, hall⟩ := common_eq_ok_iff.1 hok
      exact .inr (.inl ⟨ofKey key, hne, hall, hok⟩)
    | some other =>
      have hcross : common (key :: keys) = .error (.crossSlot (ofKey key) other) := by
        simp only [common, hstray]
      have hne := List.find?_some (p := (· != ofKey key)) hstray
      obtain ⟨b, hb, rfl⟩ := List.mem_map.1 (List.mem_of_find?_eq_some hstray)
      have hdiffer : ofKey key ≠ ofKey b := by
        intro heq
        simp [heq] at hne
      exact .inr (.inr ⟨key, List.mem_cons_self, b, List.mem_cons_of_mem key hb, hdiffer, hcross⟩)

end Slot

/-- An invocation that ends in its first turn ends for want of time, of attempts or of a client. -/
theorem Invocation.start_error {N α : Type} {w : World N} {policy : RetryPolicy} {body : Body α}
    {slot : Option UInt16} {callerDeadline : Option Nat} {e : Error}
    (h : (Invocation.start w policy body slot callerDeadline).2 = .done (.error e)) :
    (∀ argument, e ≠ .invalidArgument argument) ∧ ∀ first other, e ≠ .crossSlot first other := by
  have hstep :=
    next_step w ({ policy, body, slot, budget := .ofPolicy policy w.now callerDeadline } : Invocation α) none
  unfold start at h
  generalize next w _ none = r at h hstep
  cases hstep with
  | closed | spent | late =>
    obtain rfl := Except.error.inj (Turn.done.inj h)
    exact ⟨nofun, nofun⟩
  | attempt | resolve => cases h

/-! ### The calls -/

/-- A call that names keys, as the caller makes it. -/
inductive KeyedCall where
  | get (key : Bytes)
  | set (key value : Bytes)
  | del (keys : List Bytes)
  | existing (keys : List Bytes)
  | incr (key : Bytes)
  | sadd (key : Bytes) (members : List Bytes)
  | smembers (key : Bytes)
  | sdiffstore (destination : Bytes) (keys : List Bytes)
  | sinterstore (destination : Bytes) (keys : List Bytes)
  | sunionstore (destination : Bytes) (keys : List Bytes)
  | zunionstore (destination : Bytes) (keys : List Bytes)
  | mget (keys : List Bytes)
  | mset (pairs : List (Bytes × Bytes))
  | rename (key newKey : Bytes)
  | bitop (operation : BitOperation) (destination : Bytes) (keys : List Bytes)
  | pfmerge (destination : Bytes) (keys : List Bytes)
  | pfcount (keys : List Bytes)
  | eval (script : Bytes) (keys arguments : List Bytes)

namespace KeyedCall

/-- What the caller gets. -/
def Result : KeyedCall → Type
  | .get _ => Option Bytes
  | .set .. | .mset _ | .rename .. | .pfmerge .. => Unit
  | .smembers _ => List Bytes
  | .mget _ => List (Option Bytes)
  | .eval .. => Frame
  | _ => Int64

/-- The call. -/
def call : (k : KeyedCall) → Call k.Result
  | .get key => .get key
  | .set key value => .set key value
  | .del keys => .del keys
  | .existing keys => .existing keys
  | .incr key => .incr key
  | .sadd key members => .sadd key members
  | .smembers key => .smembers key
  | .sdiffstore destination keys => .sdiffstore destination keys
  | .sinterstore destination keys => .sinterstore destination keys
  | .sunionstore destination keys => .sunionstore destination keys
  | .zunionstore destination keys => .zunionstore destination keys
  | .mget keys => .mget keys
  | .mset pairs => .mset pairs
  | .rename key newKey => .rename key newKey
  | .bitop operation destination keys => .bitop operation destination keys
  | .pfmerge destination keys => .pfmerge destination keys
  | .pfcount keys => .pfcount keys
  | .eval script keys arguments => .eval script keys arguments

/-- The keys that the caller has named, in his order. -/
def keys : KeyedCall → List Bytes
  | .get key | .set key _ | .incr key | .sadd key _ | .smembers key => [key]
  | .del keys | .existing keys | .mget keys | .pfcount keys | .eval _ keys _ => keys
  | .sdiffstore destination keys | .sinterstore destination keys | .sunionstore destination keys
  | .zunionstore destination keys | .bitop _ destination keys | .pfmerge destination keys =>
    destination :: keys
  | .mset pairs => pairs.map Prod.fst
  | .rename key newKey => [key, newKey]

/-- A script without keys, which has no slot. -/
def Keyless (k : KeyedCall) : Prop := ∃ script arguments, k = .eval script [] arguments

variable {N : Type} {k : KeyedCall}

/-- **What a node finds in the command are the caller's keys**, all of them and in his order. -/
theorem keys?_command (k : KeyedCall) : k.call.command.keys? = some k.keys := by
  cases k with
  | zunionstore destination keys =>
    show (KeyRule.counted true).find? (destination :: Decimal.digits keys.length :: keys) = _
    have hkeys := KeyRule.counted?_digits keys []
    rw [List.append_nil] at hkeys
    rw [KeyRule.find?, hkeys]
    rfl
  | eval script keys arguments =>
    show (KeyRule.counted false).find? (script :: Decimal.digits keys.length :: (keys ++ arguments)) = _
    rw [KeyRule.find?, KeyRule.counted?_digits]
    rfl
  | mset pairs => exact KeyRule.others?_flatMap pairs
  | _ => rfl

/-- A call is routed by its keys, unless it is a script that has none. -/
theorem route_cases (k : KeyedCall) :
    k.Keyless ∧ k.keys = [] ∧ k.call.route = .anyNode ∨ ¬k.Keyless ∧ k.call.route = .keys k.keys := by
  cases k with
  | eval script keys arguments =>
    cases keys with
    | nil => exact .inl ⟨⟨script, arguments, rfl⟩, rfl, rfl⟩
    | cons key keys => exact .inr ⟨fun ⟨_, _, h⟩ => (by cases h), rfl⟩
  | _ => exact .inr ⟨fun ⟨_, _, h⟩ => (by cases h), rfl⟩

/-- What the route of a call can come to. -/
inductive Routing (k : KeyedCall) : Except Error (Option UInt16) → Prop where
  | keyless (keyless : k.Keyless) (empty : k.keys = []) : Routing k (.ok none)
  | unnamed (keyed : ¬k.Keyless) (empty : k.keys = []) : Routing k (.error (.invalidArgument .noKeys))
  | together (keyed : ¬k.Keyless) (named : k.keys ≠ []) {slot : UInt16}
      (all : ∀ key ∈ k.keys, Slot.ofKey key = slot) : Routing k (.ok (some slot))
  | apart {a b : Bytes} (first : a ∈ k.keys) (other : b ∈ k.keys) (ne : Slot.ofKey a ≠ Slot.ofKey b) :
      Routing k (.error (.crossSlot (Slot.ofKey a) (Slot.ofKey b)))

theorem routing (k : KeyedCall) : k.Routing k.call.route.slot? := by
  rcases k.route_cases with ⟨hkeyless, hnone, hroute⟩ | ⟨hkeyed, hroute⟩ <;> rw [hroute, Route.slot?]
  · exact .keyless hkeyless hnone
  · rcases Slot.common_cases k.keys with ⟨hnone, h⟩ | ⟨slot, hsome, hall, h⟩ | ⟨a, ha, b, hb, hne, h⟩ <;> rw [h]
    · exact .unnamed hkeyed hnone
    · exact .together hkeyed hsome hall
    · exact .apart ha hb hne

end KeyedCall

namespace Call

variable {N α : Type} {c : Call α}

/-- A call fails for the sake of its keys exactly if it has no route for that reason. -/
theorem start_error_iff {e : Error}
    (he : (∃ argument, e = .invalidArgument argument) ∨ ∃ first other, e = .crossSlot first other)
    (w : World N) (policy : RetryPolicy) :
    (c.start w policy).2 = .done (.error e) ↔ c.route.slot? = .error e := by
  constructor
  · intro h
    cases hslot : c.route.slot? with
    | error e' =>
      rw [start_of_error hslot] at h
      exact congrArg Except.error (Except.error.inj (Turn.done.inj h))
    | ok slot? =>
      rw [start_of_ok hslot] at h
      obtain ⟨hnamed, htogether⟩ := Invocation.start_error h
      rcases he with ⟨argument, rfl⟩ | ⟨first, other, rfl⟩
      · exact absurd rfl (hnamed argument)
      · exact absurd rfl (htogether first other)
  · intro hslot
    rw [start_of_error hslot]

/-- A call sends its command and nothing else. -/
theorem body_cases (c : Call α) (started : Nat) (heard : List Patience.Heard) :
    c.body started heard = .send c.command ∨ ∃ result, c.body started heard = .finish result := by
  unfold body
  split
  · exact .inr ⟨_, rfl⟩
  · exact .inr ⟨_, rfl⟩
  · exact .inl rfl

end Call

namespace KeyedCall

variable {N : Type}

/-- A call fails for want of keys exactly if it needs a key and has none. -/
theorem fails_unnamed_iff (k : KeyedCall) (w : World N) (policy : RetryPolicy) :
    (∃ argument, (k.call.start w policy).2 = .done (.error (.invalidArgument argument))) ↔
      k.keys = [] ∧ ¬k.Keyless := by
  have hiff := fun argument => Call.start_error_iff (c := k.call) (.inl ⟨argument, rfl⟩) w policy
  have hrouting := k.routing
  simp only [hiff]
  generalize k.call.route.slot? = route at hrouting ⊢
  cases hrouting with
  | keyless hkeyless => simp [hkeyless]
  | unnamed hkeyed hnone => simp [hnone, hkeyed]
  | together hkeyed hsome => simp [hsome]
  | apart ha => simp [List.ne_nil_of_mem ha]

/-- A call fails because of two slots exactly if two of its keys are in different ones. -/
theorem fails_apart_iff (k : KeyedCall) (w : World N) (policy : RetryPolicy) :
    (∃ first other, (k.call.start w policy).2 = .done (.error (.crossSlot first other))) ↔
      ∃ a ∈ k.keys, ∃ b ∈ k.keys, Slot.ofKey a ≠ Slot.ofKey b := by
  have hiff := fun first other =>
    Call.start_error_iff (c := k.call) (.inr ⟨first, other, rfl⟩) w policy
  have hrouting := k.routing
  simp only [hiff]
  generalize k.call.route.slot? = route at hrouting ⊢
  cases hrouting with
  | keyless _ hnone => simp [hnone]
  | unnamed _ hnone => simp [hnone]
  | apart ha hb hne => exact ⟨fun _ => ⟨_, ha, _, hb, hne⟩, fun _ => ⟨_, _, rfl⟩⟩
  | together _ _ hall =>
    refine ⟨nofun, ?_⟩
    rintro ⟨a, ha, b, hb, hne⟩
    exact absurd ((hall a ha).trans (hall b hb).symm) hne

/-- **The keys in the command are the keys that decide its route.** A call fails before anything is sent
and leaves the world as it is, for want of keys exactly if it has none, and because of two slots
exactly if two of its keys are in different ones; or it becomes an invocation of the one slot of all its
keys, and of any node exactly if it is a script without keys. What a node finds in the key positions of
the command that is sent are the keys of the caller, destinations included, all of them and in his order;
and where a number says how many keys follow, it is their number. -/
theorem keys_on_the_wire (k : KeyedCall) (w : World N) (policy : RetryPolicy) :
    ((∃ argument, (k.call.start w policy).2 = .done (.error (.invalidArgument argument))) ↔
      k.keys = [] ∧ ¬k.Keyless) ∧
    ((∃ first other, (k.call.start w policy).2 = .done (.error (.crossSlot first other))) ↔
      ∃ a ∈ k.keys, ∃ b ∈ k.keys, Slot.ofKey a ≠ Slot.ofKey b) ∧
    (∀ e, k.call.route.slot? = .error e → k.call.start w policy = (w, .done (.error e)) ∧
      ((∃ argument, e = .invalidArgument argument) ∨ ∃ first other, e = .crossSlot first other)) ∧
    (∀ slot?, k.call.route.slot? = .ok slot? →
      k.call.start w policy = Invocation.start w policy k.call.body slot? none ∧
      (slot? = none ↔ k.Keyless) ∧ ∀ slot, slot? = some slot → ∀ key ∈ k.keys, Slot.ofKey key = slot) ∧
    (∀ started, k.call.body started [] = .send k.call.command ∧ ∀ heard,
      k.call.body started heard = .send k.call.command ∨ ∃ result, k.call.body started heard = .finish result) ∧
    k.call.command.keys? = some k.keys ∧
    (∀ destination keys, k = .zunionstore destination keys → ∃ count,
      k.call.command.arguments = destination :: count :: keys ∧ Decimal.natural? count = some keys.length) ∧
    ∀ script keys arguments, k = .eval script keys arguments → ∃ count,
      k.call.command.arguments = script :: count :: (keys ++ arguments) ∧
        Decimal.natural? count = some keys.length := by
  refine ⟨?_, ?_, ?_, ?_, fun started => ⟨rfl, k.call.body_cases started⟩, k.keys?_command, ?_, ?_⟩
  · exact k.fails_unnamed_iff w policy
  · exact k.fails_apart_iff w policy
  · intro e he
    have hrouting := k.routing
    rw [he] at hrouting
    refine ⟨Call.start_of_error he w policy, ?_⟩
    cases hrouting with
    | unnamed => exact .inl ⟨_, rfl⟩
    | apart => exact .inr ⟨_, _, rfl⟩
  · intro slot? hslot
    have hrouting := k.routing
    rw [hslot] at hrouting
    refine ⟨Call.start_of_ok hslot w policy, ?_⟩
    cases hrouting with
    | keyless hkeyless => exact ⟨⟨fun _ => hkeyless, fun _ => rfl⟩, nofun⟩
    | together hkeyed hsome hall =>
      refine ⟨⟨nofun, fun hkeyless => absurd hkeyless hkeyed⟩, ?_⟩
      rintro _ ⟨⟩
      exact hall
  · rintro destination keys rfl
    exact ⟨Decimal.digits keys.length, rfl, Decimal.natural?_digits keys.length⟩
  · rintro script keys arguments rfl
    exact ⟨Decimal.digits keys.length, rfl, Decimal.natural?_digits keys.length⟩

/-- A union of two keys that have the tag of its destination. -/
def tagged : KeyedCall := .zunionstore (.ofText "\x7bt\x7dd") [.ofText "\x7bt\x7da", .ofText "\x7bt\x7db"]

/-- The three keys are in one slot, and a node finds them in the command. -/
theorem keys_on_the_wire_tagged :
    tagged.call.route.slot? = .ok (some (Slot.ofKey (.ofText "t"))) ∧
    (∀ key ∈ tagged.keys, Slot.ofKey key = Slot.ofKey (.ofText "t")) ∧
    tagged.call.command.keys? = some [.ofText "\x7bt\x7dd", .ofText "\x7bt\x7da", .ofText "\x7bt\x7db"] := by
  have hsame : ∀ key ∈ tagged.keys, Slot.hashed key = Slot.hashed (.ofText "t") := by decide
  have hall : ∀ key ∈ tagged.keys, Slot.ofKey key = Slot.ofKey (.ofText "t") := by
    intro key hkey
    unfold Slot.ofKey
    rw [hsame key hkey]
  have hroute : tagged.call.route.slot? = .ok (some (Slot.ofKey (.ofText "t"))) := by
    have hcommon : Slot.common tagged.keys = .ok (Slot.ofKey (.ofText "t")) :=
      Slot.common_eq_ok_iff.2 ⟨List.cons_ne_nil _ _, hall⟩
    show (Slot.common tagged.keys).map some = _
    rw [hcommon]
    rfl
  obtain ⟨-, -, -, hdispatched, -, hkeys, -⟩ := keys_on_the_wire tagged (World.ofSeed ()) default
  exact ⟨hroute, (hdispatched _ hroute).2.2 _ rfl, hkeys⟩

end KeyedCall

end SlotRouter
