import SlotRouter.World

/-!
# Simulated nodes

A network of nodes that follow scripts. A node has a list of answers for each command name, takes them in turn, and
repeats the last; for other commands it has plain answers of its own. An answer comes after a delay, in one piece or
in several, and may close the connection behind it. What is sent on a connection arrives in order.

The network keeps a log of the openings that were tried and the commands that were received.

What happens to the simulated world of a client from outside is here too: time passes, a node changes, and somebody
takes the log.
-/

namespace SlotRouter.Simulation

/-- What an answer consists of. -/
inductive Payload where
  | octets (bs : Bytes)
  /-- The words of the command, as an array. -/
  | words
  | nothing

/-- One answer of a script. Times are nanoseconds. -/
structure Answer where
  payload : Payload := .nothing
  delay : Nat := 0
  /-- The length of the pieces in which the answer comes. -/
  piece : Option Nat := none
  /-- The time between two pieces. -/
  gap : Nat := 0
  /-- Whether the connection ends after the answer. -/
  close : Bool := false

/-- The answers to commands of one name, and how many have been given. -/
structure Script where
  answers : List Answer
  given : Nat := 0

/-- How a node takes new connections. -/
inductive Door where
  | accepts
  | refuses
  | hangs
  deriving DecidableEq

/-- A node that follows scripts. -/
structure Node where
  address : String
  /-- The scripts, by command name in capitals. -/
  scripts : List (Bytes × Script) := []
  door : Door := .accepts
  connectDelay : Nat := 0
  /-- How many connections have been accepted. -/
  accepted : Nat := 0

/-- A connection to a node. -/
structure Channel where
  address : String
  number : Nat
  /-- When the opening is decided, and how it fails if it does. -/
  opening : Option (Nat × Option IoError)
  /-- What is under way to the client, and when it arrives; nothing stands for the end. -/
  arrivals : List (Nat × Option Bytes) := []
  /-- The node has dropped the connection. -/
  dropped : Bool := false

/-- How the opening of a connection began. -/
inductive Start where
  | number (n : Nat)
  | refused
  | hanging
  deriving DecidableEq

/-- An entry of the log. -/
inductive Event where
  | opening (time : Nat) (address : String) (start : Start)
  | command (time : Nat) (address : String) (number : Nat) (words : List Bytes)

/-- A network of nodes. -/
structure Nodes where
  nodes : List Node := []
  /-- The connections; the place in the list is the handle. -/
  channels : List Channel := []
  /-- The log, the latest entry in front. -/
  log : List Event := []

namespace Script

/-- The next answer. -/
def next (s : Script) : Option Answer × Script :=
  (s.answers[min s.given (s.answers.length - 1)]?, { s with given := s.given + 1 })

end Script

namespace Node

/-- The names that the script for all commands does not cover. -/
def isReserved (name : Bytes) : Bool :=
  name == .ofText "CLUSTER" || name == .ofText "PING" || name == .ofText "ASKING"

/-- The name under which the answers to a command are listed. -/
def scriptName? (n : Node) (name : Bytes) : Option Bytes :=
  if (n.scripts.lookup name).isSome then some name
  else if !isReserved name && (n.scripts.lookup (.ofText "*")).isSome then some (.ofText "*")
  else none

/-- The answer to a command for which there is no script. -/
def plainAnswer (name : Bytes) : Answer :=
  let f : Frame :=
    if name == .ofText "PING" then .ofText "PONG"
    else if name == .ofText "CLUSTER" then .array []
    else .ofText "OK"
  { payload := .octets f.encode }

/-- The answer to a command of the name. -/
def answer (n : Node) (name : Bytes) : Answer × Node :=
  match n.scriptName? name with
  | none => (plainAnswer name, n)
  | some key =>
    match n.scripts.lookup key with
    | none => (plainAnswer name, n)
    | some script =>
      let (answer?, script) := script.next
      (answer?.getD (plainAnswer name),
        { n with scripts := n.scripts.map fun s => if s.1 == key then (key, script) else s })

end Node

namespace Answer

/-- The octets of an answer to a command. -/
def octets (a : Answer) (words : List Bytes) : Bytes :=
  match a.payload with
  | .octets bs => bs
  | .words => (Frame.array (words.map .bulk)).encode
  | .nothing => []

/-- Pieces of `size` octets, each `gap` later than the one before. -/
def pieces (size gap : Nat) : (fuel : Nat) → (time : Nat) → Bytes → List (Nat × Option Bytes)
  | 0, _, _ | _, _, [] => []
  | fuel + 1, time, bs => (time, some (bs.take size)) :: pieces size gap fuel (time + gap) (bs.drop size)

/-- What is under way to the client after a command at `now`. -/
def arrivals (a : Answer) (now : Nat) (words : List Bytes) : List (Nat × Option Bytes) :=
  let bs := a.octets words
  let first := now + a.delay
  let data := pieces (match a.piece with
    | some size => max size 1
    | none => max bs.length 1) a.gap bs.length first bs
  let last := match data.getLast? with
    | some piece => piece.1
    | none => first
  if a.close then data ++ [(last, none)] else data

end Answer

namespace Nodes

/-- The most that is read at a time. -/
def readSize : Nat := 4096

/-- The node with the address. -/
def node? (c : Nodes) (address : String) : Option Node := c.nodes.find? fun n => n.address == address

/-- Puts a node in the place of the node with its address, or adds it. -/
def putNode (c : Nodes) (n : Node) : Nodes :=
  if (c.node? n.address).isSome then
    { c with nodes := c.nodes.map fun m => if m.address == n.address then n else m }
  else { c with nodes := c.nodes ++ [n] }

/-- Adds an entry to the log. -/
def record (c : Nodes) (e : Event) : Nodes := { c with log := e :: c.log }

/-- Adds a connection. -/
def addChannel (c : Nodes) (ch : Channel) : Nodes × Handle :=
  ({ c with channels := c.channels ++ [ch] }, c.channels.length)

/-- Starts to open a connection. -/
def connect (c : Nodes) (now : Nat) (address : String) : Nodes × Handle :=
  let refused (time : Nat) : Nodes × Handle :=
    (c.record (.opening now address .refused)).addChannel
      { address, number := 0, opening := some (time, some .refused) }
  match c.node? address with
  | none => refused now
  | some n =>
    match n.door with
    | .refuses => refused (now + n.connectDelay)
    | .hangs =>
      (c.record (.opening now address .hanging)).addChannel { address, number := 0, opening := none }
    | .accepts =>
      let c := c.putNode { n with accepted := n.accepted + 1 }
      (c.record (.opening now address (.number n.accepted))).addChannel
        { address, number := n.accepted, opening := some (now + n.connectDelay, none) }

/-- How far the opening of a connection has come. -/
def opening (c : Nodes) (now : Nat) (h : Handle) : Opening :=
  match c.channels[h]?.bind Channel.opening with
  | none => .pending
  | some (time, failure?) =>
    if now < time then .pending
    else match failure? with
      | some failure => .failed failure
      | none => .opened

/-- The words of a command. -/
def wordsOf (bs : Bytes) : List Bytes :=
  match ({ buffer := bs } : Decoder).decode with
  | (.frame (.array items), _) => items.filterMap Frame.payload?
  | _ => []

/-- The node of a connection receives a command. -/
def deliver (c : Nodes) (now : Nat) (h : Handle) (ch : Channel) (words : List Bytes) : Nodes :=
  match c.node? ch.address, words with
  | some n, name :: _ =>
    let (answer, n) := n.answer (Bytes.asciiUpper name)
    let c := (c.putNode n).record (.command now ch.address ch.number words)
    { c with channels :=
        c.channels.set h { ch with arrivals := ch.arrivals ++ answer.arrivals now words } }
  | _, _ => c

/-- Writes to a connection; what is written to a dropped one is lost. -/
def send (c : Nodes) (now : Nat) (h : Handle) (bs : Bytes) : Nodes :=
  match c.channels[h]? with
  | none => c
  | some ch => if ch.dropped then c else c.deliver now h ch (wordsOf bs)

/-- Takes what has arrived on a connection. -/
def receive (c : Nodes) (now : Nat) (h : Handle) : Nodes × Receipt :=
  match c.channels[h]? with
  | none => (c, .ended)
  | some ch =>
    if ch.dropped then (c, .ended)
    else match ch.arrivals with
      | [] => (c, .pending)
      | (time, piece) :: later =>
        if now < time then (c, .pending)
        else match piece with
          | none => (c, .ended)
          | some bs =>
            let left := bs.drop readSize
            let arrivals := if left.isEmpty then later else (time, some left) :: later
            ({ c with channels := c.channels.set h { ch with arrivals } }, .octets (bs.take readSize))

/-- The instants at which something happens on a connection. -/
def instants (ch : Channel) : List Nat :=
  ch.opening.toList.map Prod.fst ++
    if ch.dropped then [] else ch.arrivals.head?.toList.map Prod.fst

/-- The next instant after `now` at which something happens. -/
def nextEvent? (c : Nodes) (now : Nat) : Option Nat :=
  ((c.channels.flatMap instants).filter (now < ·)).min?

instance : Network Nodes where
  connect := connect
  opening := opening
  send c now h bs := (send c now h bs, .taken bs.length)
  receive := receive
  nextEvent? := nextEvent?

/-- A change to a node; what is not given stays. -/
structure Change where
  address : String
  door : Option Door := none
  connectDelay : Option Nat := none
  /-- Scripts that start over. -/
  scripts : List (Bytes × List Answer) := []
  /-- Whether the node drops its connections. -/
  kill : Bool := false

/-- Changes a node, which is made if there is none. -/
def change (c : Nodes) (ch : Change) : Nodes :=
  let n := (c.node? ch.address).getD { address := ch.address }
  let kept := n.scripts.filter fun s => !(ch.scripts.map Prod.fst).contains s.1
  let n := { n with
    door := ch.door.getD n.door
    connectDelay := ch.connectDelay.getD n.connectDelay
    scripts := kept ++ ch.scripts.map fun s => (s.1, { answers := s.2 }) }
  let c := c.putNode n
  if ch.kill then
    { c with channels := c.channels.map fun k =>
        if k.address == ch.address then { k with dropped := true } else k }
  else c

/-- The log in order, and the network with an empty one. -/
def takeLog (c : Nodes) : List Event × Nodes := (c.log.reverse, { c with log := [] })

end Nodes
end SlotRouter.Simulation

/-! ### From outside -/

namespace SlotRouter.World

open Simulation

/-- Time passes while nobody does anything. -/
def elapse (w : World Nodes) (duration : Nat) : World Nodes := { w with now := w.now + duration }

/-- A node changes. -/
def change (w : World Nodes) (c : Nodes.Change) : World Nodes := { w with net := w.net.change c }

/-- The log since it was last taken. -/
def takeLog (w : World Nodes) : List Event × World Nodes :=
  let (log, net) := w.net.takeLog
  (log, { w with net })

end SlotRouter.World
