import SlotRouter.Bytes
import SlotRouter.Text.Shown

/-!
# Errors

Every way in which a call can fail, as causes. The wording is in one place, `Error.message`; nothing else
in the library inspects it. An error is a connection error (`isConnectionError`) when another attempt may
succeed where this one failed, and a redirect (`isRedirect`) when a node named a better address.

Three errors end an invocation and wrap the one behind it, that of its last attempt or of its last search
for a node: `retriesExhausted`, `deadlineExceeded` and `commandFailed`. `cause` looks through one such
wrapper.
-/

namespace SlotRouter

/-- The kind of a failure of input or output. -/
inductive IoKind where
  | notFound | permissionDenied | connectionRefused | connectionReset | hostUnreachable
  | networkUnreachable | connectionAborted | notConnected | addrInUse | addrNotAvailable | networkDown
  | brokenPipe | alreadyExists | wouldBlock | invalidInput | invalidData | timedOut | writeZero
  | interrupted | unsupported | unexpectedEof | outOfMemory | other
  deriving DecidableEq, Inhabited

/-- A failure of input or output. -/
structure IoError where
  kind : IoKind
  message : String
  deriving DecidableEq, Inhabited

namespace IoError

/-- The peer has closed the connection. -/
def closed : IoError := ⟨.unexpectedEof, "connection closed"⟩

/-- The peer does not listen. -/
def refused : IoError := ⟨.connectionRefused, "Connection refused (os error 111)"⟩

/-- The network takes no octets although it does not fail. -/
def writeZero : IoError := ⟨.writeZero, "write zero"⟩

/-- The pool of the address takes no more borrowers. -/
def retired (address : String) : IoError :=
  ⟨.notConnected, "pool for " ++ address ++ " has been retired"⟩

end IoError

/-- What is wrong with octets or a reply that do not follow the protocol. -/
inductive Fault where
  | bufferTooLarge
  | payloadTooLarge
  | payloadUnterminated
  | arrayTooLarge
  | arrayTooDeep
  | unknownTag (tag : UInt8)
  | malformedInteger (line : Bytes)
  /-- A reply is not of the kind that the command answers with. -/
  | unexpectedReply (wanted : String)
  | integerReply
  | cursorReply
  | scanReply
  | layoutNotArray
  | rangeNotArray
  | rangeTooShort
  | slotBound
  | rangeReversed
  | nodeNotArray
  | nodeTooShort
  | nodeHost
  | nodePort
  /-- A fault that a caller describes in its own words. -/
  | described (text : String)
  deriving DecidableEq, Inhabited

/-- The wording of a fault. -/
def Fault.message : Fault → String
  | .bufferTooLarge => "buffer size exceeded maximum frame size"
  | .payloadTooLarge => "bulk string length exceeds maximum frame size"
  | .payloadUnterminated => "bulk string missing terminator"
  | .arrayTooLarge => "array length exceeds reasonable maximum"
  | .arrayTooDeep => "array nesting exceeds maximum depth"
  | .unknownTag tag => "unknown frame type: " ++ String.singleton (Char.ofNat tag.toNat)
  | .malformedInteger line => "invalid integer: " ++ Utf8.lossyText line
  | .unexpectedReply wanted => "unexpected frame type, expected " ++ wanted
  | .integerReply => "invalid integer"
  | .cursorReply => "invalid cursor value"
  | .scanReply => "SCAN response must have 2 elements"
  | .layoutNotArray => "CLUSTER SLOTS response must be an array"
  | .rangeNotArray => "slot range must be an array"
  | .rangeTooShort => "slot range must have at least 3 elements"
  | .slotBound => "slot bound must be an integer in 0..16384"
  | .rangeReversed => "slot range end precedes start"
  | .nodeNotArray => "node info must be an array"
  | .nodeTooShort => "node info must have host and port"
  | .nodeHost => "node host must be a string"
  | .nodePort => "node port must be an integer in 1..65536"
  | .described text => text

/-- Why a URL cannot be read. -/
inductive UrlFault where
  | noScheme
  | emptyHost
  | hostCharacter
  | domainName
  | ipv4Address
  | ipv6Address
  | portNumber
  deriving DecidableEq, Inhabited

/-- The wording of a URL fault. -/
def UrlFault.message : UrlFault → String
  | .noScheme => "relative URL without a base"
  | .emptyHost => "empty host"
  | .hostCharacter => "invalid domain character"
  | .domainName => "invalid international domain name"
  | .ipv4Address => "invalid IPv4 address"
  | .ipv6Address => "invalid IPv6 address"
  | .portNumber => "invalid port number"

/-- What is wrong with an argument or a setting. -/
inductive Misuse where
  | noKeys
  | noSeeds
  | noAttempts
  | noFailures
  | noConnections
  | emptySeed
  | malformedSeed (seed : String) (fault : UrlFault)
  | encryptedSeed (seed : String)
  | foreignScheme (scheme : String)
  | seedWithoutHost (seed : String)
  /-- A misuse that a caller describes in its own words. -/
  | described (text : String)
  deriving DecidableEq, Inhabited

/-- The wording of a misuse. -/
def Misuse.message : Misuse → String
  | .noKeys => "command requires at least one key"
  | .noSeeds => "at least one seed node is required"
  | .noAttempts => "max_attempts must be at least 1"
  | .noFailures => "refresh_after_connection_failures must be at least 1"
  | .noConnections => "max_connections_per_node must be at least 1"
  | .emptySeed => "empty seed address"
  | .malformedSeed seed fault => "invalid seed address '" ++ seed ++ "': " ++ fault.message
  | .encryptedSeed seed => "TLS seed '" ++ seed ++ "' is not supported, connections are plain TCP"
  | .foreignScheme scheme => "invalid scheme '" ++ scheme ++ "', expected redis://"
  | .seedWithoutHost seed => "missing host in seed '" ++ seed ++ "'"
  | .described text => text

/-- What a call was waiting for when its time ran out. -/
inductive Wait where
  | connection
  | reply
  | command
  | topology
  /-- Something that a caller describes in its own words. -/
  | described (text : String)
  deriving DecidableEq, Inhabited

/-- The wording of a wait. -/
def Wait.message : Wait → String
  | .connection => "connecting"
  | .reply => "waiting for reply"
  | .command => "executing command"
  | .topology => "refreshing topology"
  | .described text => text

/-- Why the cluster does not serve a slot. -/
inductive Outage where
  /-- A node says so, in its own words. -/
  | reported (text : String)
  /-- No node of the layout has the slot. -/
  | unserved (slot : UInt16)
  deriving DecidableEq, Inhabited

/-- The wording of an outage. -/
def Outage.message : Outage → String
  | .reported text => text
  | .unserved slot => "slot " ++ toString slot.toNat ++ " is not served by any node"

/-- Why a command cannot be routed. -/
inductive Unroutable where
  /-- The keys that match the pattern may be in any slot. -/
  | unanchored (pattern : Bytes)
  /-- A reason that a caller describes in its own words. -/
  | described (text : String)
  deriving DecidableEq, Inhabited

/-- The wording of a refusal to route. -/
def Unroutable.message : Unroutable → String
  | .unanchored pattern =>
    "pattern '" ++ Utf8.lossyText pattern ++ "' is not anchored to a hash tag; keys may live on any node"
  | .described text => text

/-- Why a call failed. -/
inductive Error where
  | io (failure : IoError)
  | protocol (fault : Fault)
  /-- A node answered with an error of its own. -/
  | server (message : String)
  | auth
  | invalidArgument (misuse : Misuse)
  | timeout (wait : Wait)
  /-- No connection of the pool came free in `waited` nanoseconds. -/
  | poolExhausted (address : String) (waited : Nat)
  /-- The slot now lives at the address. -/
  | moved (slot : UInt16) (address : String)
  /-- This one command should go to the address. -/
  | ask (slot : UInt16) (address : String)
  | clusterDown (outage : Outage)
  /-- Two keys of one command are in different slots. -/
  | crossSlot (first other : UInt16)
  | routingUnsupported (reason : Unroutable)
  | unsupportedOperation (command : String)
  | noReachableNode
  | retriesExhausted (attempts : Nat) (slot : Option UInt16) (node : Option String) (source : Error)
  | deadlineExceeded (attempts : Nat) (slot : Option UInt16) (node : Option String)
      (source : Option Error)
  | commandFailed (attempts : Nat) (slot : Option UInt16) (node : Option String) (source : Error)
  | clientClosed
  deriving Inhabited

namespace Error

/-- The peer has closed the connection. -/
def closed : Error := .io .closed

/-- Where an invocation stood when it gave up: attempts, slot and last node. -/
def standing (attempts : Nat) (slot : Option UInt16) (node : Option String) : String :=
  toString attempts ++ " attempts (slot " ++ Text.optional (fun s => toString s.toNat) slot
    ++ ", node " ++ Text.optional Text.quoted node ++ ")"

/-- The wording of an error. -/
def message : Error → String
  | .io failure => "IO error: " ++ failure.message
  | .protocol fault => "protocol error: " ++ fault.message
  | .server text => "server error: " ++ text
  | .auth => "authentication failed"
  | .invalidArgument misuse => "invalid argument: " ++ misuse.message
  | .timeout wait => "timed out while " ++ wait.message
  | .poolExhausted address waited =>
    "connection pool for " ++ address ++ " exhausted after waiting " ++ Text.duration waited
  | .moved slot address => "MOVED to slot " ++ toString slot.toNat ++ " at " ++ address
  | .ask slot address => "ASK to slot " ++ toString slot.toNat ++ " at " ++ address
  | .clusterDown outage => "CLUSTERDOWN " ++ outage.message
  | .crossSlot first other =>
    "CROSSSLOT keys in request don't hash to the same slot (" ++ toString first.toNat ++ " != "
      ++ toString other.toNat ++ ")"
  | .routingUnsupported reason => "routing unsupported: " ++ reason.message
  | .unsupportedOperation command => command ++ " is not supported in cluster mode"
  | .noReachableNode => "no reachable cluster node"
  | .retriesExhausted attempts slot node source =>
    "retries exhausted after " ++ standing attempts slot node ++ ": " ++ source.message
  | .deadlineExceeded attempts slot node _ =>
    "deadline exceeded after " ++ standing attempts slot node
  | .commandFailed attempts slot node source =>
    "command failed after " ++ standing attempts slot node ++ ": " ++ source.message
  | .clientClosed => "cluster client is closed"

/-- Whether the connection, and not the command, is at fault. -/
def isConnectionError : Error → Bool
  | .io _ | .timeout _ | .poolExhausted .. => true
  | _ => false

/-- Whether a node named another address. -/
def isRedirect : Error → Bool
  | .moved .. | .ask .. => true
  | _ => false

/-- The error inside a wrapper, and any other error itself. -/
def cause : Error → Error
  | .retriesExhausted _ _ _ source | .commandFailed _ _ _ source
  | .deadlineExceeded _ _ _ (some source) => source
  | e => e

/-- The wording of the failure that this error reports on, if it has one of its own. -/
def sourceMessage? : Error → Option String
  | .io failure => some failure.message
  | .retriesExhausted _ _ _ source | .commandFailed _ _ _ source
  | .deadlineExceeded _ _ _ (some source) => some source.message
  | _ => none

/-- A connection error is not a redirect. -/
theorem isRedirect_of_isConnectionError {e : Error} (h : e.isConnectionError = true) :
    e.isRedirect = false := by
  cases e <;> simp_all [isConnectionError, isRedirect]

end Error

/-! ### What comes of two steps -/

section

variable {ε β γ : Type} {x : Except ε β} {g : β → Except ε γ}

/-- What comes out of two steps comes out of the second, from what came out of the first. -/
theorem ok_of_bind {c : γ} (h : x >>= g = .ok c) : ∃ b, x = .ok b ∧ g b = .ok c := by
  cases x with
  | error e => cases h
  | ok b => exact ⟨b, rfl, h⟩

/-- What fails in two steps fails in the first, or in the second after the first. -/
theorem error_of_bind {e : ε} (h : x >>= g = .error e) : x = .error e ∨ ∃ b, x = .ok b ∧ g b = .error e := by
  cases x with
  | error e' => exact .inl (congrArg Except.error (Except.error.inj h))
  | ok b => exact .inr ⟨b, rfl, h⟩

end
end SlotRouter
