import SlotRouter.Address
import SlotRouter.Command
import SlotRouter.Frame.Decode
import SlotRouter.Network

/-!
# Links

A link is the client's end of a connection to a node. An exchange writes one command, in as many
pieces as the network takes it, and reads one frame, the reply, within the socket timeout. While an
exchange runs the link counts as broken, so it stays broken if the exchange is given up, times out
or fails: a link with a reply still to come is never used again.

An error line is a good reply as far as the link goes, and the caller gets the error that it
reports.
-/

namespace SlotRouter

/-- The client's end of a connection to a node. -/
structure Link where
  handle : Handle
  address : String
  socketTimeout : Nat
  decoder : Decoder := {}
  /-- The next reply on the connection may be an old one. -/
  broken : Bool := false

/-- A command on its way over a link. -/
inductive Exchange where
  /-- The exchange has not begun. -/
  | entering (link : Link) (command : Command)
  /-- The octets are still to be written before the deadline. -/
  | writing (link : Link) (octets : Bytes) (deadline : Nat)
  /-- The command has been written, and the reply is awaited until the deadline. -/
  | waiting (link : Link) (deadline : Nat)

/-- The link after an exchange, and what its caller is told. -/
abbrev Answered := Link × Except Error Frame

namespace Exchange

/-- The link that the exchange runs on. -/
def link : Exchange → Link
  | .entering link _ | .writing link _ _ | .waiting link _ => link

/-- When the exchange times out, once it has begun. -/
def timer? : Exchange → Option Nat
  | .entering .. => none
  | .writing _ _ deadline | .waiting _ deadline => some deadline

/-- What the caller is told about a frame that was read from a node at `address`. -/
def reply (address : String) : Frame → Except Error Frame
  | .error line => .error (Redirect.ofLine line address)
  | f => .ok f

variable {N : Type} [Network N]

/-- Begins the exchange, unless the link is broken. -/
def enter (now : Nat) (link : Link) (c : Command) : Turn Exchange Answered :=
  if link.broken then .done (link, .error .closed)
  else .running (.writing { link with broken := true } c.encode (now + link.socketTimeout))

/-- Hands octets over to the network, or else looks at the clock. -/
def write (now : Nat) (net : N) (link : Link) (octets : Bytes) (deadline : Nat) :
    N × Turn Exchange Answered :=
  match Network.send net now link.handle octets with
  | (net, .taken count) =>
    (net, match octets.drop count with
      | [] => .running (.waiting link deadline)
      | left =>
        if count = 0 then .done (link, .error (.io .writeZero))
        else .running (.writing link left deadline))
  | (net, .failed failure) => (net, .done (link, .error (.io failure)))
  | (net, .pending) =>
    if deadline ≤ now then (net, .done (link, .error (.timeout .reply))) else (net, .blocked)

/-- Takes a reply that has arrived, or else what has arrived of it, or else looks at the clock. -/
def await (now : Nat) (net : N) (link : Link) (deadline : Nat) : N × Turn Exchange Answered :=
  match link.decoder.decode with
  | (.frame f, decoder) =>
    (net, .done ({ link with decoder, broken := false }, reply link.address f))
  | (.faulty fault, _) => (net, .done (link, .error (.protocol fault)))
  | (.incomplete, _) =>
    match Network.receive net now link.handle with
    | (net, .octets bs) =>
      (net, .running (.waiting { link with decoder := link.decoder.append bs } deadline))
    | (net, .ended) => (net, .done (link, .error .closed))
    | (net, .failed failure) => (net, .done (link, .error (.io failure)))
    | (net, .pending) =>
      if deadline ≤ now then (net, .done (link, .error (.timeout .reply))) else (net, .blocked)

/-- One turn of an exchange. -/
def turn (now : Nat) (net : N) : Exchange → N × Turn Exchange Answered
  | .entering link c => (net, enter now link c)
  | .writing link octets deadline => write now net link octets deadline
  | .waiting link deadline => await now net link deadline

end Exchange
end SlotRouter
