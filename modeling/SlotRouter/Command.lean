import SlotRouter.Frame.Wire

/-!
# Commands

A command is a name and arguments, all of them octets. On the wire it is an array of payloads
(`Command.toFrame`), so no argument can be taken for anything else.
-/

namespace SlotRouter

/-- A command to a node. -/
structure Command where
  name : Bytes
  arguments : List Bytes := []
  deriving DecidableEq, Inhabited

/-- How `BITOP` combines its sources. -/
inductive BitOperation where
  | and | or | xor | not
  deriving DecidableEq, Inhabited

/-- The word for the operation in a command. -/
def BitOperation.word : BitOperation → Bytes
  | .and => .ofText "AND"
  | .or => .ofText "OR"
  | .xor => .ofText "XOR"
  | .not => .ofText "NOT"

namespace Command

/-- The name and the arguments. -/
def words (c : Command) : List Bytes := c.name :: c.arguments

/-- The frame that carries the command. -/
def toFrame (c : Command) : Frame := .array (c.words.map .bulk)

/-- The octets that carry the command. -/
def encode (c : Command) : Bytes := c.toFrame.encode

/-- The command with the given name in letters. -/
def named (name : String) (arguments : List Bytes) : Command := ⟨.ofText name, arguments⟩

def ping : Command := named "PING" []

def echo (message : Bytes) : Command := named "ECHO" [message]

def get (key : Bytes) : Command := named "GET" [key]

def set (key value : Bytes) : Command := named "SET" [key, value]

def del (keys : List Bytes) : Command := named "DEL" keys

def existing (keys : List Bytes) : Command := named "EXISTS" keys

def incr (key : Bytes) : Command := named "INCR" [key]

def mget (keys : List Bytes) : Command := named "MGET" keys

/-- Writes each key with its value. -/
def mset (pairs : List (Bytes × Bytes)) : Command :=
  named "MSET" (pairs.flatMap fun p => [p.1, p.2])

def rename (key newKey : Bytes) : Command := named "RENAME" [key, newKey]

def sadd (key : Bytes) (members : List Bytes) : Command := named "SADD" (key :: members)

def smembers (key : Bytes) : Command := named "SMEMBERS" [key]

/-- A set operation `name` that stores its result. -/
def setStore (name : String) (destination : Bytes) (keys : List Bytes) : Command :=
  named name (destination :: keys)

/-- The sources are preceded by their number. -/
def zunionstore (destination : Bytes) (keys : List Bytes) : Command :=
  named "ZUNIONSTORE" (destination :: Decimal.digits keys.length :: keys)

def bitop (operation : BitOperation) (destination : Bytes) (keys : List Bytes) : Command :=
  named "BITOP" (operation.word :: destination :: keys)

def pfmerge (destination : Bytes) (keys : List Bytes) : Command :=
  named "PFMERGE" (destination :: keys)

def pfcount (keys : List Bytes) : Command := named "PFCOUNT" keys

def keys (pattern : Bytes) : Command := named "KEYS" [pattern]

/-- One page of the keys that match the pattern, of about `count` keys. -/
def scan (cursor : UInt64) (pattern : Bytes) (count : Option UInt64) : Command :=
  named "SCAN" ([Decimal.digits cursor.toNat, .ofText "MATCH", pattern]
    ++ match count with
      | some count => [.ofText "COUNT", Decimal.digits count.toNat]
      | none => [])

def publish (channel message : Bytes) : Command := named "PUBLISH" [channel, message]

/-- The keys of the script are preceded by their number and followed by its other arguments. -/
def eval (script : Bytes) (keys arguments : List Bytes) : Command :=
  named "EVAL" (script :: Decimal.digits keys.length :: (keys ++ arguments))

/-- Waits until `replicas` replicas have caught up, for at most `milliseconds`. -/
def wait (replicas : UInt32) (milliseconds : UInt64) : Command :=
  named "WAIT" [Decimal.digits replicas.toNat, Decimal.digits milliseconds.toNat]

/-- Proves the right to use a node. -/
def auth (username : Option Bytes) (password : Bytes) : Command :=
  named "AUTH" (username.toList ++ [password])

/-- Tells a node the name of this connection. -/
def setName (name : Bytes) : Command := named "CLIENT" [.ofText "SETNAME", name]

/-- Asks a node for the layout of the cluster. -/
def clusterSlots : Command := named "CLUSTER" [.ofText "SLOTS"]

/-- Announces that the next command was sent here by an `ASK` redirect. -/
def asking : Command := named "ASKING" []

end Command
end SlotRouter
