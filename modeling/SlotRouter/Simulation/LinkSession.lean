import SlotRouter.Simulation.Node
import SlotRouter.Simulation.Timeline
import SlotRouter.World

/-!
# Sessions with one link

Steps on a link that belongs to no pool. A command can be given up after a time, and then the link stays broken.
-/

namespace SlotRouter.Simulation

/-- The world of a session with a link. -/
structure LinkSession where
  world : World Nodes
  link : Link

namespace LinkSession

/-- Opens a link to the address. -/
def dial (rounds : Nat) (config : ConnectionConfig) (address : String) (nodes : Nodes) :
    World Nodes × Option (Except Error LinkSession) :=
  let setup : Setup := { seeds := [], connection := config, pool := {}, chance := .settled }
  let (world, d) := ({ topology := .fresh setup, net := nodes } : World Nodes).dial address
  match Timeline.runOne ⟨World.dialOn, Dial.timer?⟩ rounds world d with
  | (world, none) => (world, none)
  | (world, some (.error e)) => (world, some (.error e))
  | (world, some (.ok link)) => (world, some (.ok ⟨world, link⟩))

/-- Sends a command; if a time is given, gives up after it, and then there is no answer. -/
def send (s : LinkSession) (rounds : Nat) (c : Command) (giveUpAfter : Option Nat) :
    LinkSession × Option (Option (Except Error Frame)) :=
  let until? := giveUpAfter.map (s.world.now + ·)
  match Timeline.runOne ⟨Patience.turn, Patience.timer?⟩ rounds s.world ⟨.entering s.link c, until?⟩ with
  | (world, none) => ({ s with world }, none)
  | (world, some (link, answer)) => (⟨world, link⟩, some answer)

end LinkSession
end SlotRouter.Simulation
