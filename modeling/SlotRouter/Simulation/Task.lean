import SlotRouter.Client
import SlotRouter.Simulation.Node
import SlotRouter.Simulation.Timeline

/-!
# Tasks of a simulated client

A task waits for its time and then does one job: a call, a body of commands, a refresh, or a change to the client or to
a node. Several tasks run side by side on the timeline.
-/

namespace SlotRouter.Simulation

/-- What a job yields. -/
inductive Value where
  | unit
  | integer (n : Int64)
  | octets (bs : Bytes)
  | payload (bs : Option Bytes)
  | payloads (values : List (Option Bytes))
  | members (values : List Bytes)
  | page (cursor : UInt64) (keys : List Bytes)
  | frame (f : Frame)
  | frames (fs : List Frame)
  | address (a : Option String)
  | addresses (as : List (Option String))
  | count (n : Option Nat)
  /-- A slot table: how many slots are served, and its summary. -/
  | table (covered : Nat) (summary : String)
  /-- A pool: whether it is closed, its idle links, and whether it is the one registered under its address. -/
  | pool (closed : Bool) (idle : Nat) (registered : Option Bool)

/-- What a step answers. -/
abbrev Result := Except Error Value

/-- What a task does when its time has come. Durations are nanoseconds. -/
inductive Job where
  | call (c : Call Value)
  /-- Runs a body on the slot, or on any node; `within` bounds its time from now. -/
  | body (slot : Except Error (Option UInt16)) (body : Body Value) (within : Option Nat)
  | refresh
  | owner (slot : Nat)
  | close
  | change (c : Nodes.Change)
  | rest (duration : Nat)

/-- A task and how far it has come. -/
inductive Task where
  | waiting (wake : Nat) (job : Job)
  | resting (wake : Nat)
  | refreshing (refresh : Refresh)
  | invoking (invocation : Invocation Value) (stage : Invocation.Stage)

/-- A body that sends the commands in turn, up to the first error. Then it fails as `raise` says for its start, or else
yields the replies. -/
def script (commands : List Command) (raise : List (Option Error)) : Body Value :=
  fun startedBefore heard =>
    match heard.getLast? with
    | some (some (.error e)) => .finish (.error e)
    | _ =>
      match commands[heard.length]? with
      | some c => .send c
      | none =>
        match raise[startedBefore]? with
        | some (some e) => .finish (.error e)
        | _ => .finish (.ok (.frames (heard.filterMap fun a => a.bind Except.toOption)))

namespace Task

/-- When the present wait ends. -/
def timer? : Task → Option Nat
  | .waiting wake _ | .resting wake => some wake
  | .refreshing r => r.timer?
  | .invoking inv stage => inv.timer? stage

/-- A turn of an invocation, as a turn of its task. -/
def invoked (r : World Nodes × Invocation.Step Value) : World Nodes × Turn Task Result :=
  (r.1, r.2.mapState fun s => .invoking s.1 s.2)

/-- A turn of a refresh, as a turn of its task. -/
def refreshed (r : World Nodes × Turn Refresh (Except Error Unit)) : World Nodes × Turn Task Result :=
  (r.1, match r.2 with
    | .blocked => .blocked
    | .running r => .running (.refreshing r)
    | .done result => .done (result.map fun _ => .unit))

/-- The first turn of a job. -/
def start (policy : RetryPolicy) (w : World Nodes) : Job → World Nodes × Turn Task Result
  | .call c => invoked (c.start w policy)
  | .body slot body within =>
    match slot with
    | .error e => (w, .done (.error e))
    | .ok slot => invoked (Invocation.start w policy body slot (within.map (w.now + ·)))
  | .refresh => refreshed (Refresh.entering.turn w)
  | .owner slot => (w, .done (.ok (.address (w.topology.owner? slot))))
  | .close => (w.modifyTopology Topology.close, .done (.ok .unit))
  | .change c => (w.change c, .done (.ok .unit))
  | .rest duration => (w, .running (.resting (w.now + duration)))

/-- One turn of a task. -/
def turn (policy : RetryPolicy) (w : World Nodes) : Task → World Nodes × Turn Task Result
  | .waiting wake job => if wake ≤ w.now then start policy w job else (w, .blocked)
  | .resting wake => if wake ≤ w.now then (w, .done (.ok .unit)) else (w, .blocked)
  | .refreshing r => refreshed (r.turn w)
  | .invoking inv stage => invoked (inv.turn w stage)

/-- Tasks as activities of a timeline. -/
def kind (policy : RetryPolicy) : Kind Nodes Task Result := ⟨turn policy, timer?⟩

/-- Runs jobs side by side, each after a time of its own from now; the results, and when they came. -/
def runAll (rounds : Nat) (policy : RetryPolicy) (w : World Nodes) (jobs : List (Nat × Job)) :
    World Nodes × List (Option (Result × Nat)) :=
  let (w, ss) := Timeline.run (kind policy) rounds w
    (jobs.map fun j => .live (.waiting (w.now + j.1) j.2))
  (w, ss.map fun
    | .ended result time => some (result, time)
    | .live _ => none)

end Task
end SlotRouter.Simulation
