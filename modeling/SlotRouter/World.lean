import SlotRouter.Link.Dial
import SlotRouter.Topology

/-!
# The world of a client

What the activities of a client share: the clock, the topology and the network. An activity changes the world only in
its own turns.

Whoever has a link can give up on an exchange after a time of his own. The link is then broken, since the reply
may still come (`Patience`).
-/

namespace SlotRouter

/-- The clock, what the client knows, and the network. -/
structure World (N : Type) where
  /-- The time since the start, in nanoseconds. -/
  now : Nat := 0
  topology : Topology
  net : N

namespace World

variable {N : Type}

/-- Changes what the client knows. -/
def modifyTopology (w : World N) (f : Topology → Topology) : World N :=
  { w with topology := f w.topology }

/-- The pool with the number. -/
def pool (w : World N) (id : PoolId) : Pool := w.topology.pool id

/-- Changes the pool with the number. -/
def modifyPool (w : World N) (id : PoolId) (f : Pool → Pool) : World N :=
  w.modifyTopology fun t => t.modifyPool id f

/-- The pool that is registered under the address, made if there is none. -/
def obtain (w : World N) (address : String) : PoolId × World N :=
  let (id, topology) := w.topology.obtain address
  (id, { w with topology })

/-- How links are opened and used. -/
def connectionConfig (w : World N) : ConnectionConfig := w.topology.setup.connection

/-- The world with what came of a turn on the network. -/
def withNet {α : Type} (w : World N) (r : N × α) : World N × α := ({ w with net := r.1 }, r.2)

variable [Network N]

/-- One turn of an exchange. -/
def exchange (w : World N) (x : Exchange) : World N × Turn Exchange Answered :=
  w.withNet (x.turn w.now w.net)

/-- Starts to open a link. -/
def dial (w : World N) (address : String) : World N × Dial :=
  w.withNet (Dial.start w.connectionConfig w.now w.net address)

/-- One turn of an opening. -/
def dialOn (w : World N) (d : Dial) : World N × Turn Dial (Except Error Link) :=
  w.withNet (d.turn w.connectionConfig w.now w.net)

end World

/-! ### Exchanges that are given up -/

/-- An exchange that may be given up at an instant. -/
structure Patience where
  exchange : Exchange
  until? : Option Nat

namespace Patience

/-- When the present wait ends. -/
def timer? (p : Patience) : Option Nat := earlier? p.exchange.timer? p.until?

/-- What came of an exchange: the answer, or nothing if it was given up. -/
abbrev Heard := Option (Except Error Frame)

variable {N : Type} [Network N]

/-- One turn; the exchange goes first. It yields the link and what has come of the exchange. -/
def turn (w : World N) (p : Patience) : World N × Turn Patience (Link × Heard) :=
  match w.exchange p.exchange with
  | (w, .running exchange) => (w, .running { p with exchange })
  | (w, .done (link, answer)) => (w, .done (link, some answer))
  | (w, .blocked) =>
    match p.until? with
    | some instant =>
      if instant ≤ w.now then (w, .done (p.exchange.link, none)) else (w, .blocked)
    | none => (w, .blocked)

end Patience
end SlotRouter
