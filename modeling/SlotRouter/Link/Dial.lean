import SlotRouter.Config
import SlotRouter.Link
import SlotRouter.Reply

/-!
# Opening links

A link is opened in up to three stages: the connection, the proof of the right to use the node, and the name of the
connection, the last two only if the configuration has a password and a name. A node that rejects the password
with an error of its own makes the opening fail with `Error.auth`.
-/

namespace SlotRouter

/-- A link that is being opened. -/
inductive Dial where
  | connecting (address : String) (handle : Handle) (deadline : Nat)
  | authenticating (exchange : Exchange)
  | naming (exchange : Exchange)

namespace Dial

/-- When the present stage times out. -/
def timer? : Dial → Option Nat
  | .connecting _ _ deadline => some deadline
  | .authenticating x | .naming x => x.timer?

/-- The command that proves the right to use a node, if one is needed. -/
def credentials? (config : ConnectionConfig) : Option Command :=
  config.password.map fun password =>
    .auth (config.username.map Bytes.ofText) (.ofText password)

/-- The stage after the proof of the right to use the node. -/
def afterAuth (config : ConnectionConfig) (link : Link) : Turn Dial (Except Error Link) :=
  match config.clientName with
  | some name => .running (.naming (.entering link (.setName (.ofText name))))
  | none => .done (.ok link)

/-- The stage after the opening of the connection. -/
def afterConnect (config : ConnectionConfig) (link : Link) : Turn Dial (Except Error Link) :=
  match credentials? config with
  | some command => .running (.authenticating (.entering link command))
  | none => afterAuth config link

/-- What an error in reply to the credentials comes to. -/
def rejected : Error → Error
  | .server _ => .auth
  | e => e

variable {N : Type} [Network N]

/-- Starts to open a link to the address. -/
def start (config : ConnectionConfig) (now : Nat) (net : N) (address : String) : N × Dial :=
  let (net, handle) := Network.connect net now address
  (net, .connecting address handle (now + config.connectTimeout))

/-- One turn of an opening. -/
def turn (config : ConnectionConfig) (now : Nat) (net : N) :
    Dial → N × Turn Dial (Except Error Link)
  | .connecting address handle deadline =>
    match Network.opening net now handle with
    | .opened =>
      (net, afterConnect config { handle, address, socketTimeout := config.socketTimeout })
    | .failed failure => (net, .done (.error (.io failure)))
    | .pending =>
      if deadline ≤ now then (net, .done (.error (.timeout .connection))) else (net, .blocked)
  | .authenticating x =>
    match x.turn now net with
    | (net, .blocked) => (net, .blocked)
    | (net, .running x) => (net, .running (.authenticating x))
    | (net, .done (link, .ok _)) => (net, afterAuth config link)
    | (net, .done (_, .error e)) => (net, .done (.error (rejected e)))
  | .naming x =>
    match x.turn now net with
    | (net, .blocked) => (net, .blocked)
    | (net, .running x) => (net, .running (.naming x))
    | (net, .done (link, .ok f)) => (net, .done ((Reply.unit f).map fun _ => link))
    | (net, .done (_, .error e)) => (net, .done (.error e))

end Dial
end SlotRouter
