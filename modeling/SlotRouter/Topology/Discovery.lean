import SlotRouter.Pool.Borrow

/-!
# Discovery of a layout

A client asks for the layout one node after the other, and takes the first that it can read: first the nodes that it
knows, over their pools, and then the seeds that are not among them, each over a link of its own.
-/

namespace SlotRouter

/-- A search for a layout. `nodes` and `seeds` are the candidates still to be asked. -/
inductive Discovery where
  | borrowing (node : String) (nodes seeds : List String) (borrow : Borrow)
  | querying (node : String) (nodes seeds : List String) (pool : PoolId) (exchange : Exchange)
  | dialling (seed : String) (seeds : List String) (dial : Dial)
  | asking (seed : String) (seeds : List String) (exchange : Exchange)

namespace Discovery

/-- When the present wait ends. -/
def timer? : Discovery → Option Nat
  | .borrowing _ _ _ b => b.timer?
  | .querying _ _ _ _ x | .asking _ _ x => x.timer?
  | .dialling _ _ d => d.timer?

variable {N : Type}

/-- The search is given up. -/
def drop (w : World N) : Discovery → World N
  | .borrowing _ _ _ b => b.drop w
  | .querying _ _ _ id x => Loan.giveBack w id x.link false
  | .dialling .. | .asking .. => w

/-- The layout in the answer of a node. -/
def layout (node : String) : Except Error Frame → Except Error (List SlotRange)
  | .ok f => Layout.ofReply (String.ofList (Address.host node.toList)) f
  | .error e => .error e

/-- How a search ends or goes on. -/
abbrev Step := Turn Discovery (Except Error (List SlotRange))

variable [Network N]

/-- Goes on with the next seed. -/
def nextSeed (w : World N) : List String → World N × Step
  | [] => (w, .done (.error .noReachableNode))
  | seed :: seeds =>
    let (w, d) := w.dial seed
    (w, .running (.dialling seed seeds d))

/-- Goes on with the next node that still has a pool, or else with the next seed. -/
def nextNode (w : World N) (seeds : List String) : List String → World N × Step
  | [] => nextSeed w seeds
  | node :: nodes =>
    match w.topology.registered? node with
    | some id => (w, .running (.borrowing node nodes seeds (.entering id)))
    | none => nextNode w seeds nodes

/-- Starts a search. -/
def start (w : World N) : World N × Step :=
  let (known, topology) := w.topology.drawNodes
  nextNode { w with topology } (w.topology.setup.seeds.filter fun seed => !known.contains seed) known

/-- One turn of a search. -/
def turn (w : World N) : Discovery → World N × Step
  | .borrowing node nodes seeds b =>
    match b.turn w with
    | (w, .blocked) => (w, .blocked)
    | (w, .running b) => (w, .running (.borrowing node nodes seeds b))
    | (w, .done (.ok loan)) =>
      (w, .running (.querying node nodes seeds loan.pool (.entering loan.link .clusterSlots)))
    | (w, .done (.error _)) => nextNode w seeds nodes
  | .querying node nodes seeds id x =>
    match w.exchange x with
    | (w, .blocked) => (w, .blocked)
    | (w, .running x) => (w, .running (.querying node nodes seeds id x))
    | (w, .done (link, answer)) =>
      let w := Loan.giveBack w id link false
      match layout node answer with
      | .ok ranges => (w, .done (.ok ranges))
      | .error _ => nextNode w seeds nodes
  | .dialling seed seeds d =>
    match w.dialOn d with
    | (w, .blocked) => (w, .blocked)
    | (w, .running d) => (w, .running (.dialling seed seeds d))
    | (w, .done (.ok link)) => (w, .running (.asking seed seeds (.entering link .clusterSlots)))
    | (w, .done (.error _)) => nextSeed w seeds
  | .asking seed seeds x =>
    match w.exchange x with
    | (w, .blocked) => (w, .blocked)
    | (w, .running x) => (w, .running (.asking seed seeds x))
    | (w, .done (_, answer)) =>
      match layout seed answer with
      | .ok ranges => (w, .done (.ok ranges))
      | .error _ => nextSeed w seeds

end Discovery
end SlotRouter
