import SlotRouter.Invocation
import SlotRouter.Reply
import SlotRouter.Slot

/-!
# Calls and clients

A call is a command, the rule by which it is routed, and the reader of its reply. The route is worked out before
anything is sent: keys must share a slot, and a pattern must be anchored to one. Each kind of call has a function
named for its command.

A client is a checked configuration with the policy of its invocations; what it knows of the cluster is in the world.
It starts with nothing known, and learns the layout with a first refresh.
-/

namespace SlotRouter

/-! ### Calls -/

/-- How a call finds its node. -/
inductive Route where
  /-- To the node that serves the one slot of the keys. -/
  | keys (keys : List Bytes)
  /-- To the node that serves all keys that match the pattern. -/
  | pattern (pattern : Bytes)
  | anyNode
  /-- The command cannot be used in a cluster. -/
  | nowhere (command : String)
  deriving DecidableEq

/-- The slot that a route leads to; none for any node. -/
def Route.slot? : Route → Except Error (Option UInt16)
  | .keys ks => (Slot.common ks).map some
  | .pattern glob => (Slot.ofPattern glob).map some
  | .anyNode => .ok none
  | .nowhere command => .error (.unsupportedOperation command)

/-- A command, its route, and the reader of its reply. -/
structure Call (α : Type) where
  route : Route
  command : Command
  read : Frame → Except Error α

namespace Call

variable {α β : Type}

/-- The same call with another view of its result. -/
def map (f : α → β) (c : Call α) : Call β := { c with read := fun r => (c.read r).map f }

/-- Sends the command once and reads the reply. -/
def body (c : Call α) : Body α := fun _ heard =>
  match heard with
  | some (.ok f) :: _ => .finish (c.read f)
  | some (.error e) :: _ => .finish (.error e)
  | _ => .send c.command

/-- A call that is routed by its keys. -/
def keyed (keys : List Bytes) (command : Command) (read : Frame → Except Error α) : Call α :=
  ⟨.keys keys, command, read⟩

/-- A call that any node can answer. -/
def anywhere (command : Command) (read : Frame → Except Error α) : Call α :=
  ⟨.anyNode, command, read⟩

def get (key : Bytes) : Call (Option Bytes) := keyed [key] (.get key) Reply.value

def set (key value : Bytes) : Call Unit := keyed [key] (.set key value) Reply.unit

def del (keys : List Bytes) : Call Int64 := keyed keys (.del keys) Reply.integer

def existing (keys : List Bytes) : Call Int64 := keyed keys (.existing keys) Reply.integer

def incr (key : Bytes) : Call Int64 := keyed [key] (.incr key) Reply.integer

def sadd (key : Bytes) (members : List Bytes) : Call Int64 :=
  keyed [key] (.sadd key members) Reply.integer

def smembers (key : Bytes) : Call (List Bytes) := keyed [key] (.smembers key) Reply.members

/-- A set operation that stores its result; the destination must share the slot of the sources. -/
def setStore (name : String) (destination : Bytes) (keys : List Bytes) : Call Int64 :=
  keyed (Slot.mergeKeys destination keys) (.setStore name destination keys) Reply.integer

def sdiffstore (destination : Bytes) (keys : List Bytes) : Call Int64 :=
  setStore "SDIFFSTORE" destination keys

def sinterstore (destination : Bytes) (keys : List Bytes) : Call Int64 :=
  setStore "SINTERSTORE" destination keys

def sunionstore (destination : Bytes) (keys : List Bytes) : Call Int64 :=
  setStore "SUNIONSTORE" destination keys

def zunionstore (destination : Bytes) (keys : List Bytes) : Call Int64 :=
  keyed (Slot.mergeKeys destination keys) (.zunionstore destination keys) Reply.integer

def mget (keys : List Bytes) : Call (List (Option Bytes)) := keyed keys (.mget keys) Reply.values

def mset (pairs : List (Bytes × Bytes)) : Call Unit :=
  keyed (pairs.map Prod.fst) (.mset pairs) Reply.unit

def rename (key newKey : Bytes) : Call Unit := keyed [key, newKey] (.rename key newKey) Reply.unit

def bitop (operation : BitOperation) (destination : Bytes) (keys : List Bytes) : Call Int64 :=
  keyed (Slot.mergeKeys destination keys) (.bitop operation destination keys) Reply.integer

def pfmerge (destination : Bytes) (keys : List Bytes) : Call Unit :=
  keyed (Slot.mergeKeys destination keys) (.pfmerge destination keys) Reply.unit

def pfcount (keys : List Bytes) : Call Int64 := keyed keys (.pfcount keys) Reply.integer

def keys (pattern : Bytes) : Call (List Bytes) := ⟨.pattern pattern, .keys pattern, Reply.members⟩

def scan (cursor : UInt64) (pattern : Bytes) (count : Option UInt64) : Call (UInt64 × List Bytes) :=
  ⟨.pattern pattern, .scan cursor pattern count, Reply.scan⟩

/-- A nil reply counts as empty. -/
def echo (message : Bytes) : Call Bytes :=
  (anywhere (.echo message) Reply.value).map fun payload => payload.getD []

def ping : Call Unit := anywhere .ping Reply.unit

def publish (channel message : Bytes) : Call Int64 :=
  anywhere (.publish channel message) Reply.integer

/-- A script without keys can run on any node. -/
def eval (script : Bytes) (keys arguments : List Bytes) : Call Frame :=
  { route := if keys.isEmpty then .anyNode else .keys keys
    command := .eval script keys arguments
    read := Reply.frame }

/-- A script without keys, on the node that serves the sample key. -/
def evalOn (sampleKey script : Bytes) (arguments : List Bytes) : Call Frame :=
  keyed [sampleKey] (.eval script [] arguments) Reply.frame

/-- Waits for the replicas of the node that serves the sample key. -/
def wait (sampleKey : Bytes) (replicas : UInt32) (milliseconds : UInt64) : Call Int64 :=
  keyed [sampleKey] (.wait replicas milliseconds) Reply.integer

/-- Transactions on several nodes cannot be watched. -/
def watch (keys : List Bytes) : Call Unit :=
  ⟨.nowhere "WATCH", .named "WATCH" keys, Reply.unit⟩

def unwatch : Call Unit := ⟨.nowhere "UNWATCH", .named "UNWATCH" [], Reply.unit⟩

/-- The first turn of a call: it fails at once if it has no route, and nothing has been sent then. -/
def start {N : Type} (w : World N) (policy : RetryPolicy) (c : Call α) :
    World N × Invocation.Step α :=
  match c.route.slot? with
  | .error e => (w, .done (.error e))
  | .ok slot => Invocation.start w policy c.body slot none

variable {N : Type} {c : Call α}

/-- A call without a route fails at once, and nothing is done. -/
theorem start_of_error {e : Error} (h : c.route.slot? = .error e) (w : World N) (policy : RetryPolicy) :
    c.start w policy = (w, .done (.error e)) := by
  rw [start, h]

theorem start_of_ok {slot : Option UInt16} (h : c.route.slot? = .ok slot) (w : World N) (policy : RetryPolicy) :
    c.start w policy = Invocation.start w policy c.body slot none := by
  rw [start, h]

end Call

/-! ### Clients -/

/-- The part of a client that never changes. -/
structure Client where
  config : Config
  policy : RetryPolicy

namespace Client

/-- A client with the configuration, before it knows anything of the cluster. -/
def ofConfig (config : Config) : Except Error Client := do
  let config ← config.normalized
  .ok { config, policy := .ofConfig config }

/-- A client for a builder with these settings. -/
def ofBuilder (config : Config) : Except Error Client := do ofConfig (← config.built)

/-- A client for seeds in a text with commas between them. -/
def ofSeeds (seeds : String) : Except Error Client := do
  ofConfig { seeds := ← Seed.readList seeds }

/-- What a configuration tells a topology. -/
def setup (config : Config) (chance : Chance) : Setup where
  seeds := config.seeds
  connection := config.connection
  pool := config.pool
  chance := chance

/-- What the client knows of the cluster at its start. -/
def topology (c : Client) (chance : Chance) : Topology := .fresh (setup c.config chance)

end Client

end SlotRouter
