import SlotRouter.Error

/-!
# Turns and the network

An activity that may have to wait is a state. One turn of it runs from one point at which it may wait to the next,
and nothing else happens in between. The turn ends in one of three ways: the activity is blocked and nothing
has changed, it goes on in a new state, or it is done.

A client sees the network through five operations. What the nodes do with what they receive is not said here:
every type with these operations is a network, and the theory of the client holds on all of them.
-/

namespace SlotRouter

/-! ### Turns -/

/-- How a turn of an activity ends. -/
inductive Turn (σ ρ : Type) where
  /-- The activity waits, for an event or for its timer. -/
  | blocked
  | running (state : σ)
  | done (result : ρ)

namespace Turn

variable {σ τ ρ : Type}

/-- The same turn of an activity whose states are wrapped. -/
def mapState (f : σ → τ) : Turn σ ρ → Turn τ ρ
  | .blocked => .blocked
  | .running s => .running (f s)
  | .done r => .done r

/-- Whether the activity has come further. -/
def isProgress : Turn σ ρ → Bool
  | .blocked => false
  | .running _ | .done _ => true

end Turn

/-- The earlier of two instants that may not be set. -/
def earlier? : Option Nat → Option Nat → Option Nat
  | some a, some b => some (min a b)
  | some a, none => some a
  | none, b => b

/-! ### The network -/

/-- A connection, as the network numbers them. -/
abbrev Handle := Nat

/-- How far the opening of a connection has come. -/
inductive Opening where
  | pending
  | opened
  | failed (failure : IoError)

/-- What has arrived on a connection. -/
inductive Receipt where
  | pending
  | octets (bs : Bytes)
  /-- The peer sends nothing more. -/
  | ended
  | failed (failure : IoError)

/-- How far the writing of octets has come. -/
inductive Sent where
  | pending
  /-- So many of the octets have been taken. -/
  | taken (count : Nat)
  | failed (failure : IoError)

/-- The operations of a network; `now` is the instant at which each is called. -/
class Network (N : Type) where
  /-- Starts to open a connection to the address. -/
  connect : N → (now : Nat) → (address : String) → N × Handle
  opening : N → (now : Nat) → Handle → Opening
  /-- Hands octets over, or as many of them as the network takes. -/
  send : N → (now : Nat) → Handle → Bytes → N × Sent
  /-- Takes what has arrived. -/
  receive : N → (now : Nat) → Handle → N × Receipt
  /-- The next instant after `now` at which something arrives or opens. -/
  nextEvent? : N → (now : Nat) → Option Nat

end SlotRouter
