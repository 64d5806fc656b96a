import SlotRouter.Simulation.Plan

/-!
# Sessions with a topology

A session is a sequence of steps on one simulated world. Between the steps it keeps tables and pools that steps have
asked for, also after they are no longer in use.
-/

namespace SlotRouter.Simulation

/-- A step of a session. -/
inductive Step where
  | install (ranges : List SlotRange)
  | moved (slot : Nat) (address : String)
  | owners (slots : List Nat)
  /-- Keeps the table in force under a name. -/
  | snapshot (name : String)
  | snapshotGet (name : String) (slot : Nat)
  | snapshotSet (name : String) (slot : Nat) (address : String)
  | snapshotShow (name : String)
  /-- Keeps the pool of the address. -/
  | hold (address : String)
  /-- Keeps the pool of the slot. -/
  | holdSlot (slot : Nat)
  /-- Shows the pool that was kept. -/
  | held (address : String)
  | idle (address : String)
  | retain (live : List String)
  | random
  | retireAll
  | job (job : Job)

/-- The world of a session and what it keeps. -/
structure Session where
  world : World Nodes
  policy : RetryPolicy
  /-- Tables by name, as numbers. -/
  snapshots : List (String × Nat) := []
  /-- Pools by address. -/
  pools : List (String × PoolId) := []

namespace Session

/-- A session on nodes that follow scripts, with nothing known of them. -/
def fresh (setup : Setup) (policy : RetryPolicy) (nodes : Nodes) : Session :=
  { world := { topology := .fresh setup, net := nodes }, policy }

/-- The table with the name. -/
def table (s : Session) (name : String) : SlotTable :=
  ((s.snapshots.lookup name).bind fun id => s.world.topology.tables[id]?).getD .empty

/-- Changes the topology. -/
def withTopology (s : Session) (topology : Topology) : Session :=
  { s with world := { s.world with topology } }

/-- The address of the pool with the number. -/
def addressOf (s : Session) (id : PoolId) : String := (s.world.pool id).address

/-- The state of a pool that was kept. -/
def show? (s : Session) (address : String) : Option Value :=
  (s.pools.lookup address).map fun id =>
    let p := s.world.pool id
    .pool p.closed p.idle.length ((s.world.topology.registered? address).map (· == id))

/-- Runs plans side by side. -/
def runAll (s : Session) (rounds : Nat) (plans : List Plan) : Session × List Outcome :=
  let (world, outcomes) := Plan.runAll rounds s.policy s.world plans
  ({ s with world }, outcomes)

/-- Runs a step. It yields nothing if it does not come to an end. -/
def step (s : Session) (rounds : Nat) : Step → Session × Option Result
  | .install ranges =>
    match s.world.topology.install ranges with
    | .ok t => (s.withTopology t, some (.ok .unit))
    | .error e => (s, some (.error e))
  | .moved slot address =>
    let (id?, t) := s.world.topology.move slot address
    let s := s.withTopology t
    (s, some (.ok (.address (id?.map s.addressOf))))
  | .owners slots => (s, some (.ok (.addresses (slots.map s.world.topology.owner?))))
  | .snapshot name =>
    ({ s with snapshots := (name, s.world.topology.current) :: s.snapshots }, some (.ok .unit))
  | .snapshotGet name slot =>
    (s, some (.ok (.address (((s.table name).get? slot).map s.addressOf))))
  | .snapshotSet name slot address =>
    let (id, t) := s.world.topology.obtain address
    let t := match s.snapshots.lookup name with
      | some table => t.setEntry table slot id
      | none => t
    (s.withTopology t, some (.ok .unit))
  | .snapshotShow name =>
    (s, some (.ok (.table (s.table name).covered (s.table name).summary)))
  | .hold address =>
    let (id, t) := s.world.topology.obtain address
    ({ s.withTopology t with pools := (address, id) :: s.pools }, some (.ok .unit))
  | .holdSlot slot =>
    match s.world.topology.poolFor? slot with
    | some id =>
      ({ s with pools := (s.addressOf id, id) :: s.pools }, some (.ok (.address (some (s.addressOf id)))))
    | none => (s, some (.ok (.address none)))
  | .held address => (s, some (.ok ((s.show? address).getD (.address none))))
  | .idle address =>
    (s, some (.ok (.count ((s.world.topology.registered? address).map fun id =>
      (s.world.pool id).idle.length))))
  | .retain live =>
    let retired := (s.world.topology.stale live).mergeSort fun a b => decide (a ≤ b)
    (s.withTopology (s.world.topology.retain live), some (.ok (.addresses (retired.map some))))
  | .random =>
    let (id?, t) := s.world.topology.drawPool
    (s.withTopology t, some (.ok (.address (id?.map s.addressOf))))
  | .retireAll => (s.withTopology s.world.topology.retireAll, some (.ok .unit))
  | .job job =>
    match s.runAll rounds [.job 0 job] with
    | (s, [.job result _]) => (s, some result)
    | (s, _) => (s, none)

end Session
end SlotRouter.Simulation
