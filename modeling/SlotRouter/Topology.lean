import SlotRouter.Config
import SlotRouter.Layout
import SlotRouter.Pool
import SlotRouter.SlotTable

/-!
# The topology that a client knows

A topology holds the pools that are registered under addresses and the slot table in force. Installing a layout makes
a whole new table and retires the pools of nodes that the layout does not name; a single move replaces one
entry of the table in force. Earlier tables stay as they are, for those who still look at them. Closing leaves no
pool and no entry, for good.

Pools and tables are known by number and never forgotten, so that a retired pool can still be asked what it is.
-/

namespace SlotRouter

/-- What a client leaves to chance: the order of the nodes, at each draw. -/
structure Chance where
  arrange : (draw : Nat) → List String → List String
  /-- No node is lost and none is made up. -/
  perm : ∀ draw nodes, (arrange draw nodes).Perm nodes

/-- Every draw leaves the nodes in their order. -/
def Chance.settled : Chance := ⟨fun _ nodes => nodes, fun _ nodes => .refl nodes⟩

/-- What a topology is told at its start. -/
structure Setup where
  seeds : List String
  connection : ConnectionConfig
  pool : PoolConfig
  chance : Chance

/-- What a client knows of the cluster. -/
structure Topology where
  setup : Setup
  /-- Every pool ever made; its place in the list is its number. -/
  pools : List Pool := []
  /-- The pools in use, by address. -/
  registry : List (String × PoolId) := []
  /-- Every table ever in force; its place in the list is its number. -/
  tables : List SlotTable := [.empty]
  /-- The table in force. -/
  current : Nat := 0
  /-- How many refreshes have installed a layout. -/
  generation : Nat := 0
  closed : Bool := false
  /-- One refresh at a time asks for layouts. -/
  refreshLock : Semaphore := { free := 1 }
  /-- How often chance has been asked. -/
  draws : Nat := 0

namespace Topology

/-- A topology without any knowledge of the cluster. -/
def fresh (setup : Setup) : Topology := { setup }

/-- The pool with the number. -/
def pool (t : Topology) (id : PoolId) : Pool := t.pools.getD id default

/-- Changes the pool with the number. -/
def modifyPool (t : Topology) (id : PoolId) (f : Pool → Pool) : Topology :=
  { t with pools := t.pools.modify id f }

/-- The pool that is registered under the address. -/
def registered? (t : Topology) (address : String) : Option PoolId := t.registry.lookup address

/-- The pool that is registered under the address, made and registered if there is none. -/
def obtain (t : Topology) (address : String) : PoolId × Topology :=
  match t.registered? address with
  | some id => (id, t)
  | none =>
    let id := t.pools.length
    (id, { t with
      pools := t.pools ++ [.fresh address t.setup.pool.maxConnections]
      registry := t.registry ++ [(address, id)] })

/-- The addresses under which pools are registered, in ascending order. -/
def nodes (t : Topology) : List String :=
  (t.registry.map Prod.fst).mergeSort fun a b => decide (a ≤ b)

/-- The addresses under which pools are registered, in an order that chance gives. -/
def drawNodes (t : Topology) : List String × Topology :=
  (t.setup.chance.arrange t.draws t.nodes, { t with draws := t.draws + 1 })

/-- Any registered pool. -/
def drawPool (t : Topology) : Option PoolId × Topology :=
  let (nodes, t) := t.drawNodes
  (nodes.head?.bind t.registered?, t)

/-- The table in force. -/
def table (t : Topology) : SlotTable := t.tables.getD t.current default

/-- The pool that serves the slot. -/
def poolFor? (t : Topology) (slot : Nat) : Option PoolId := t.table.get? slot

/-- The address of the node that serves the slot. -/
def owner? (t : Topology) (slot : Nat) : Option String :=
  (t.poolFor? slot).map fun id => (t.pool id).address

/-- Sets an entry of the table with the number. -/
def setEntry (t : Topology) (table slot : Nat) (pool : PoolId) : Topology :=
  { t with tables := t.tables.modify table fun entries => entries.set slot pool }

/-- The slot has moved to the address: the pool there, unless the topology is closed. -/
def move (t : Topology) (slot : Nat) (address : String) : Option PoolId × Topology :=
  if t.closed then (none, t)
  else
    let (id, t) := t.obtain address
    (some id, t.setEntry t.current slot id)

/-- Fills a table from ranges, later ranges over earlier ones. -/
def layOut (t : Topology) (table : SlotTable) : List SlotRange → SlotTable × Topology
  | [] => (table, t)
  | r :: rs =>
    let (id, t) := t.obtain r.master
    t.layOut (table.assign r.first.toNat r.last.toNat id) rs

/-- The addresses in use that are not among `live`. -/
def stale (t : Topology) (live : List String) : List String :=
  (t.registry.map Prod.fst).filter fun address => !live.contains address

/-- Retires the pools of addresses that are not among `live`. -/
def retain (t : Topology) (live : List String) : Topology :=
  { t with
    pools := (t.registry.filter fun e => !live.contains e.1).foldl
      (fun pools e => pools.modify e.2 Pool.close) t.pools
    registry := t.registry.filter fun e => live.contains e.1 }

/-- Puts a new table in force. -/
def putInForce (t : Topology) (table : SlotTable) : Topology :=
  { t with tables := t.tables ++ [table], current := t.tables.length }

/-- Puts a layout in force, unless the topology is closed. -/
def install (t : Topology) (ranges : List SlotRange) : Except Error Topology :=
  if t.closed then .error .clientClosed
  else
    let (table, t) := t.layOut .empty ranges
    .ok ((t.putInForce table).retain (ranges.map SlotRange.master))

/-- Retires every pool. -/
def retireAll (t : Topology) : Topology := t.retain []

/-- Ends all use of the topology. -/
def close (t : Topology) : Topology := (({ t with closed := true } : Topology).putInForce .empty).retireAll

@[simp] theorem closed_close (t : Topology) : t.close.closed = true := rfl

@[simp] theorem registry_close (t : Topology) : t.close.registry = [] := by
  simp [close, retireAll, retain]

/-- A closed topology serves no slot. -/
theorem poolFor?_close (t : Topology) (slot : Nat) : t.close.poolFor? slot = none := by
  simp [close, retireAll, retain, putInForce, poolFor?, table]

end Topology
end SlotRouter
