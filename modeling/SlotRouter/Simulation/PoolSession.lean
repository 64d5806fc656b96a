import SlotRouter.Pool.Borrow
import SlotRouter.Simulation.Node
import SlotRouter.Simulation.Timeline

/-!
# Sessions with one pool

Steps on a pool that is registered nowhere. Borrowed links are kept by name until they are given back.
-/

namespace SlotRouter.Simulation

/-- A borrower that holds its link for a while, or somebody who closes the pool. -/
inductive Visitor where
  | borrower (hold : Nat) (discard : Bool)
  | closer

/-- How far a visitor has come. -/
inductive Visit where
  | waiting (wake : Nat) (visitor : Visitor)
  | borrowing (hold : Nat) (discard : Bool) (borrow : Borrow)
  | holding (wake : Nat) (discard : Bool) (since : Nat) (loan : Loan)

/-- What a visit comes to: when the link was borrowed, if one was. -/
abbrev Visited := Except Error (Option Nat)

namespace Visit

/-- When the present wait ends. -/
def timer? : Visit → Option Nat
  | .waiting wake _ | .holding wake _ _ _ => some wake
  | .borrowing _ _ b => b.timer?

/-- One turn of a visit to the pool. -/
def turn (pool : PoolId) (w : World Nodes) : Visit → World Nodes × Turn Visit Visited
  | .waiting wake visitor =>
    if wake ≤ w.now then
      match visitor with
      | .borrower hold discard => (w, .running (.borrowing hold discard (.entering pool)))
      | .closer => (w.modifyPool pool Pool.close, .done (.ok none))
    else (w, .blocked)
  | .borrowing hold discard b =>
    match b.turn w with
    | (w, .blocked) => (w, .blocked)
    | (w, .running b) => (w, .running (.borrowing hold discard b))
    | (w, .done (.ok loan)) => (w, .running (.holding (w.now + hold) discard w.now loan))
    | (w, .done (.error e)) => (w, .done (.error e))
  | .holding wake discard since loan =>
    if wake ≤ w.now then (Loan.giveBack w loan.pool loan.link discard, .done (.ok (some since)))
    else (w, .blocked)

end Visit

/-- The world of a session with a pool, and the links that are borrowed. -/
structure PoolSession where
  world : World Nodes
  loans : List (String × Loan) := []

namespace PoolSession

/-- The number of the only pool. -/
def theOnly : PoolId := 0

/-- A session with a pool of the address. -/
def fresh (setup : Setup) (address : String) (nodes : Nodes) : PoolSession :=
  { world :=
      { topology :=
          { Topology.fresh setup with pools := [.fresh address setup.pool.maxConnections] }
        net := nodes } }

/-- The pool. -/
def pool (s : PoolSession) : Pool := s.world.pool theOnly

/-- Gives back what is borrowed under the name. -/
def giveBack (s : PoolSession) (name : String) (discard : Bool) : PoolSession :=
  match s.loans.lookup name with
  | none => s
  | some loan =>
    { s with
      world := Loan.giveBack s.world loan.pool loan.link discard
      loans := s.loans.filter fun l => l.1 != name }

/-- Borrows a link under the name; what was borrowed under it before goes back afterwards. -/
def borrow (s : PoolSession) (rounds : Nat) (name : String) :
    PoolSession × Option (Except Error String) :=
  let kind : Kind Nodes Borrow (Except Error Loan) := ⟨Borrow.turn, Borrow.timer?⟩
  match Timeline.runOne kind rounds s.world (.entering theOnly) with
  | (world, none) => ({ s with world }, none)
  | (world, some (.error e)) => ({ s with world }, some (.error e))
  | (world, some (.ok loan)) =>
    let s := { s with world }.giveBack name false
    ({ s with loans := (name, loan) :: s.loans }, some (.ok loan.link.address))

/-- Sends a command on the link borrowed under the name; also says whether the link is broken then. -/
def send (s : PoolSession) (rounds : Nat) (name : String) (c : Command) :
    PoolSession × Option (Except Error Frame × Bool) :=
  match s.loans.lookup name with
  | none => (s, none)
  | some loan =>
    let kind : Kind Nodes Exchange Answered := ⟨World.exchange, Exchange.timer?⟩
    match Timeline.runOne kind rounds s.world (.entering loan.link c) with
    | (world, none) => ({ s with world }, none)
    | (world, some (link, answer)) =>
      ({ world
         loans := s.loans.map fun l => if l.1 == name then (name, { loan with link }) else l },
        some (answer, link.broken))

/-- Drops the idle links. -/
def invalidate (s : PoolSession) : PoolSession :=
  { s with world := s.world.modifyPool theOnly Pool.invalidate }

/-- Closes the pool. -/
def close (s : PoolSession) : PoolSession :=
  { s with world := s.world.modifyPool theOnly Pool.close }

/-- Lets visitors come, each after a time of its own; what they come to, and when. -/
def receive (s : PoolSession) (rounds : Nat) (visitors : List (Nat × Visitor)) :
    PoolSession × List (Option (Visited × Nat)) :=
  let (world, ss) := Timeline.run ⟨Visit.turn theOnly, Visit.timer?⟩ rounds s.world
    (visitors.map fun v => .live (.waiting (s.world.now + v.1) v.2))
  ({ s with world }, ss.map fun
    | .ended result time => some (result, time)
    | .live _ => none)

end PoolSession
end SlotRouter.Simulation
